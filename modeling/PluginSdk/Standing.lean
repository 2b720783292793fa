import PluginSdk.Queue
import PluginSdk.Lib.Since

/-!
# The account of one job

Between its acceptance and its removal from the table the loop sends for a job either its terminal update or the
acknowledgements of its cancellations, one for each.  The invariant (`Serve.Standing`) follows one job from the
event of its acceptance on, and says for each place of the loop what has been sent for the job and what is still to
be sent.
-/

namespace PluginSdk

open Lts

/-! ### What concerns one job -/

def Payload.updates (J : String) : Payload → Option JobUpdate
  | .jobUpdate update => if update.jobId = some ⟨J⟩ then some update else none
  | _ => none

def Payload.acknowledges (J : String) : Payload → Bool
  | .cancelJobAcknowledged acknowledged => acknowledged.jobId == some ⟨J⟩
  | _ => false

/-- The request that a message acknowledges as the cancellation of a job. -/
def Outgoing.acknowledges (J : String) (o : Outgoing) : Option Nat :=
  if o.payload.acknowledges J then o.replyTo else none

namespace ServeEvent

/-- The acceptance of the job is enqueued. -/
def Accepts (J : String) : ServeEvent → Prop
  | .sent envelope => envelope.payload = some (.jobAccepted ⟨some ⟨J⟩⟩)
  | _ => False

/-- The job leaves the table. -/
def Closes (J : String) : ServeEvent → Prop
  | .settled jobId => jobId = J
  | .cleared => True
  | _ => False

/-- The request of the host that cancels the job. -/
def cancels (J : String) : ServeEvent → Option Nat
  | .received envelope _ =>
    match envelope.payload with
    | some (.cancelJob request) =>
      if envelope.replyTo = none ∧ request.jobId = some ⟨J⟩ then some envelope.messageId else none
    | _ => none
  | _ => none

theorem cancels_eq_some {J : String} {envelope : PluginEnvelope} {call : Option Nat} {id : Nat}
    (h : (received envelope call).cancels J = some id) :
    ∃ request, envelope.payload = some (.cancelJob request) ∧ envelope.replyTo = none ∧ request.jobId = some ⟨J⟩ ∧
      id = envelope.messageId := by
  simp only [cancels] at h
  split at h
  · rename_i request hpayload
    split at h
    · rename_i hreq
      exact ⟨request, hpayload, hreq.1, hreq.2, (Option.some.inj h).symm⟩
    · cases h
  · cases h

/-- The request that is acknowledged as a cancellation of the job. -/
def acknowledges (J : String) : ServeEvent → Option Nat
  | .sent envelope => if envelope.payload.any (·.acknowledges J) then envelope.replyTo else none
  | _ => none

/-- The update of the job that is enqueued. -/
def updates (J : String) : ServeEvent → Option JobUpdate
  | .sent envelope => envelope.payload.bind (·.updates J)
  | _ => none

end ServeEvent

private theorem filterMap_snoc_of_none {α β : Type} {f : α → Option β} {l : List α} {a : α} (h : f a = none) :
    (l ++ [a]).filterMap f = l.filterMap f := by
  rw [List.filterMap_append, List.filterMap_cons_none h, List.filterMap_nil, List.append_nil]

/-- All acknowledgements for a job are those of its own entry. -/
theorem acknowledgements_of_mem {entries : List (String × ActiveJob)} {J : String} {job : ActiveJob}
    (hlabels : ∀ entry ∈ entries, ∀ c ∈ entry.2.cancellations, c.jobId = ⟨entry.1⟩)
    (hnd : (entries.map Prod.fst).Nodup) (hmem : (J, job) ∈ entries) :
    (JobManager.acknowledgements entries).filterMap (·.acknowledges J) = job.cancellations.map (·.replyTo) := by
  have hown : ∀ (j : String) (cancellations : List PendingCancellation), (∀ c ∈ cancellations, c.jobId = ⟨j⟩) →
      (cancellations.map (·.acknowledgement)).filterMap (·.acknowledges J) =
        if j = J then cancellations.map (·.replyTo) else [] := by
    intro j cancellations hc
    induction cancellations with
    | nil => simp
    | cons c rest ih =>
      have ih := ih fun c' hc' => hc c' (List.mem_cons_of_mem _ hc')
      have hj := hc c List.mem_cons_self
      rw [List.map_cons, List.filterMap_cons, ih]
      by_cases hJ : j = J
      · subst hJ
        simp [Outgoing.acknowledges, PendingCancellation.acknowledgement, Payload.acknowledges, hj]
      · simp [Outgoing.acknowledges, PendingCancellation.acknowledgement, Payload.acknowledges, hj, hJ]
  have hrest : ∀ l : List (String × ActiveJob), (∀ entry ∈ l, ∀ c ∈ entry.2.cancellations, c.jobId = ⟨entry.1⟩) →
      J ∉ l.map Prod.fst → (JobManager.acknowledgements l).filterMap (·.acknowledges J) = [] := by
    intro l hl hJ
    induction l with
    | nil => rfl
    | cons entry rest ih =>
      rw [List.map_cons, List.mem_cons, not_or] at hJ
      rw [JobManager.acknowledgements, List.flatMap_cons, List.filterMap_append,
        hown entry.1 _ (hl entry List.mem_cons_self), if_neg (Ne.symm hJ.1), List.nil_append]
      exact ih (fun e he => hl e (List.mem_cons_of_mem _ he)) hJ.2
  induction entries with
  | nil => simp at hmem
  | cons entry rest ih =>
    rw [List.map_cons, List.nodup_cons] at hnd
    have hlrest : ∀ e ∈ rest, ∀ c ∈ e.2.cancellations, c.jobId = ⟨e.1⟩ := fun e he =>
      hlabels e (List.mem_cons_of_mem _ he)
    rw [JobManager.acknowledgements, List.flatMap_cons, List.filterMap_append,
      hown entry.1 _ (hlabels entry List.mem_cons_self)]
    rcases List.mem_cons.1 hmem with rfl | hmem
    · rw [if_pos rfl]
      have hnil := hrest rest hlrest hnd.1
      rw [JobManager.acknowledgements] at hnil
      rw [hnil, List.append_nil]
    · have hne : entry.1 ≠ J := fun h => hnd.1 (h ▸ List.mem_map_of_mem hmem)
      rw [if_neg hne, List.nil_append]
      exact ih hlrest hnd.2 hmem

private theorem updates_acknowledgements (entries : List (String × ActiveJob)) (J : String) :
    (JobManager.acknowledgements entries).filterMap (·.payload.updates J) = [] := by
  refine List.filterMap_eq_nil_iff.2 fun o ho => ?_
  obtain ⟨entry, -, ho⟩ := List.mem_flatMap.1 ho
  obtain ⟨c, -, rfl⟩ := List.mem_map.1 ho
  rfl

/-- The settlement of a job is its update, or the acknowledgements of its cancellations. -/
theorem settlement_of_labels {J : String} {job : ActiveJob} (output : Output)
    (hlabels : ∀ c ∈ job.cancellations, c.jobId = ⟨J⟩) :
    (JobManager.settlement J job output).filterMap (·.payload.updates J) =
        (if job.cancellations.map (·.replyTo) = [] then [terminalUpdate J output] else []) ∧
      (JobManager.settlement J job output).filterMap (·.acknowledges J) = job.cancellations.map (·.replyTo) := by
  have hentry : (JobManager.acknowledgements [(J, job)]).filterMap (·.acknowledges J) = _ :=
    acknowledgements_of_mem (by simpa using hlabels) (by simp) List.mem_cons_self
  have hupdates := updates_acknowledgements [(J, job)] J
  simp only [JobManager.acknowledgements, List.flatMap_singleton] at hentry hupdates
  unfold JobManager.settlement
  by_cases hc : job.cancellations = []
  · simp [hc, Payload.updates, terminalUpdate, Outgoing.acknowledges, Payload.acknowledges]
  · rw [if_neg hc, if_neg (by simpa using hc)]
    exact ⟨hupdates, hentry⟩

namespace Serve

variable {s s' : Serve} {e : ServeEvent} {J : String} {w : List ServeEvent}

/-! ### One job after its acceptance -/

/-- The job is in the table, with the cancellations seen so far, and nothing has been sent for it. -/
def Running (J : String) (w : List ServeEvent) (s : Serve) : Prop :=
  (∃ job, s.jobs.active.lookup J = some job ∧ job.cancellations.map (·.replyTo) = w.filterMap (·.cancels J)) ∧
    w.filterMap (·.acknowledges J) = [] ∧ w.filterMap (·.updates J) = []

/-- What has been sent for the job and what is in the queue are together the given updates, and the acknowledgements
of the cancellations seen. -/
def Settling (J : String) (w : List ServeEvent) (queue : List Outgoing) (updates : List JobUpdate) : Prop :=
  w.filterMap (·.updates J) ++ queue.filterMap (·.payload.updates J) = updates ∧
    w.filterMap (·.acknowledges J) ++ queue.filterMap (·.acknowledges J) = w.filterMap (·.cancels J)

/-- The updates of a job that has ended with the given output. -/
def expected (J : String) (w : List ServeEvent) (output : Output) : List JobUpdate :=
  if w.filterMap (·.cancels J) = [] then [terminalUpdate J output] else []

/-- The task of the job has ended with the output and was joined. -/
def Joined (J : String) (w : List ServeEvent) (output : Output) : Prop :=
  ∃ inst, .task inst J (.ended (.ok output)) ∈ w ∧ .joined inst J ∈ w

private theorem Joined.snoc {output : Output} (hj : Joined J w output) (e : ServeEvent) :
    Joined J (w ++ [e]) output := by
  obtain ⟨inst, hended, hjoined⟩ := hj
  exact ⟨inst, List.mem_append_left _ hended, List.mem_append_left _ hjoined⟩

/-- The outputs that the tasks of the job have, they have ended with. -/
def Owned (J : String) (w : List ServeEvent) (s : Serve) : Prop :=
  ∀ t ∈ s.jobs.tasks, t.jobId = J → ∀ output, t.phase.result = some (.ok output) →
    .task t.inst J (.ended (.ok output)) ∈ w

/-- The account of a job by the place of the loop, `w` being the events since its acceptance. -/
def Standing (J : String) (w : List ServeEvent) (s : Serve) : Prop :=
  match s.loop with
  | .head | .sending _ .head | .draining _ _ => Running J w s
  | .sending queue (.spawn job) =>
    if job.jobId = J then queue = [] ∧ Settling J w [] [] ∧ w.filterMap (·.cancels J) = [] else Running J w s
  | .sending queue (.remove jobId) =>
    if jobId = J then ∃ output, Joined J w output ∧ Settling J w queue (expected J w output) else Running J w s
  | .sending queue (.clear _ _) => Settling J w queue []
  | .acknowledging _ _ | .consuming _ _ | .returned _ | .panicked _ => True

/-- An event that says nothing about the job. -/
structure Silent (J : String) (e : ServeEvent) : Prop where
  cancels : e.cancels J = none
  acknowledges : e.acknowledges J = none
  updates : e.updates J = none

private theorem Running.keep (hr : Running J w s) (he : Silent J e)
    (hl : s'.jobs.active.lookup J = s.jobs.active.lookup J) : Running J (w ++ [e]) s' := by
  unfold Running
  rw [filterMap_snoc_of_none he.cancels, filterMap_snoc_of_none he.acknowledges,
    filterMap_snoc_of_none he.updates, hl]
  exact hr

private theorem Settling.keep {queue : List Outgoing} {updates : List JobUpdate} (hs : Settling J w queue updates)
    (he : Silent J e) : Settling J (w ++ [e]) queue updates := by
  unfold Settling
  rw [filterMap_snoc_of_none he.cancels, filterMap_snoc_of_none he.acknowledges, filterMap_snoc_of_none he.updates]
  exact hs

/-- The head of the queue goes to the wire. -/
private theorem Settling.send {queue : List Outgoing} {updates : List JobUpdate} {o : Outgoing}
    {identity : SessionIdentity} {id : Nat} (hs : Settling J w (o :: queue) updates) :
    Settling J (w ++ [.sent (identity.stamp id o)]) queue updates := by
  obtain ⟨hu, ha⟩ := hs
  have hc : (ServeEvent.sent (identity.stamp id o)).cancels J = none := rfl
  have hupdates : (ServeEvent.sent (identity.stamp id o)).updates J = o.payload.updates J := rfl
  have hacks : (ServeEvent.sent (identity.stamp id o)).acknowledges J = o.acknowledges J := rfl
  constructor
  · rw [← hu, List.filterMap_append, List.append_assoc]
    congr 1
    cases h : o.payload.updates J <;> simp [hupdates, h]
  · rw [filterMap_snoc_of_none hc, ← ha, List.filterMap_append, List.append_assoc]
    congr 1
    cases h : o.acknowledges J <;> simp [hacks, h]

private theorem Processed.standing {envelope : PluginEnvelope} {call : Option Nat} (hp : Processed s envelope s' call)
    (hloop : s.loop = .head) (hr : Running J w s) : Standing J (w ++ [.received envelope call]) s' := by
  have hr' := hr
  obtain ⟨⟨job, hl, hcancels⟩, hacks, hupdates⟩ := hr'
  -- every request but the cancellation of `J` itself says nothing about `J`
  have hsilent : (ServeEvent.received envelope call).cancels J = none → Silent J (.received envelope call) :=
    fun h => ⟨h, rfl, rfl⟩
  cases hp with
  | failed => trivial
  | @replied session trace replyTo call payload link _ hreply =>
    have hnone : (ServeEvent.received envelope (some call)).cancels J = none := by
      simp only [ServeEvent.cancels, hreply]
      split <;> simp
    unfold Standing
    simp only [hloop]
    exact hr.keep (hsilent hnone) rfl
  | @accepted session trace request jobId invocation hreq hok =>
    have hne : jobId ≠ J := by
      rintro rfl
      rw [hok.inactive] at hl
      cases hl
    unfold Standing
    simp only [if_neg hne]
    exact hr.keep (hsilent (by simp [ServeEvent.cancels, hreq.payload])) rfl
  | refused hreq => exact hr.keep (hsilent (by simp [ServeEvent.cancels, hreq.payload])) rfl
  | @cancelled session trace request jobId job' hreq hid hl' =>
    by_cases hj : jobId = J
    · subst hj
      rw [hl'] at hl
      cases hl
      have hc : (ServeEvent.received envelope none).cancels jobId = some envelope.messageId := by
        simp [ServeEvent.cancels, hreq.payload, hreq.replyTo, hid]
      refine ⟨⟨_, AList.lookup_insert _, ?_⟩, ?_, ?_⟩
      · rw [List.map_append, hcancels, List.filterMap_append]
        simp [hc]
      · rw [filterMap_snoc_of_none rfl, hacks]
      · rw [filterMap_snoc_of_none rfl, hupdates]
    · refine hr.keep (hsilent ?_) (AList.lookup_insert_ne (Ne.symm hj))
      simp [ServeEvent.cancels, hreq.payload, hid, hj]
  | @acknowledged session trace request jobId hreq hid hl' =>
    have hj : jobId ≠ J := by
      rintro rfl
      rw [hl'] at hl
      cases hl
    exact hr.keep (hsilent (by simp [ServeEvent.cancels, hreq.payload, hid, hj])) rfl
  | heartbeat hreq => exact hr.keep (hsilent (by simp [ServeEvent.cancels, hreq.payload])) rfl
  | shutdown hreq => exact hr.keep (hsilent (by simp [ServeEvent.cancels, hreq.payload])) rfl

/-- What the loop sends for another purpose than this job says nothing about the job. -/
theorem silent_of_sends {active : Table String ActiveJob} {next : Next} {o : Outgoing} {identity : SessionIdentity}
    {id : Nat} (ho : next.Sends active o) (hactive : (active.lookup J).isSome)
    (hnext : ∀ jobId, next = .remove jobId → jobId ≠ J) (hclear : ∀ o' deadline, next ≠ .clear o' deadline) :
    Silent J (.sent (identity.stamp id o)) := by
  have hsilent : o.payload.updates J = none → o.payload.acknowledges J = false →
      Silent J (.sent (identity.stamp id o)) := by
    intro hu ha
    exact ⟨rfl, by simp [ServeEvent.acknowledges, SessionIdentity.stamp, SessionIdentity.envelope, ha],
      by simp [ServeEvent.updates, SessionIdentity.stamp, SessionIdentity.envelope, hu]⟩
  cases next with
  | head =>
    rcases ho with ⟨error, ho⟩ | ⟨heartbeat, ho⟩ | ⟨jobId, ho, hl⟩
    · exact hsilent (by rw [ho]; rfl) (by rw [ho]; rfl)
    · exact hsilent (by rw [ho]; rfl) (by rw [ho]; rfl)
    · have hne : jobId ≠ J := by
        rintro rfl
        simp [hl] at hactive
      exact hsilent (by rw [ho]; rfl) (by rw [ho]; simp [Payload.acknowledges, hne])
  | spawn job =>
    have ho : o.payload = _ := ho
    exact hsilent (by rw [ho]; rfl) (by rw [ho]; rfl)
  | remove jobId =>
    have hne := hnext jobId rfl
    rcases ho with ho | ⟨update, ho, hid⟩
    · exact hsilent (by rw [ho]; rfl) (by rw [ho]; simp [Payload.acknowledges, hne])
    · exact hsilent (by rw [ho]; simp [Payload.updates, hid, hne]) (by rw [ho]; rfl)
  | clear o' deadline => exact absurd rfl (hclear o' deadline)

private theorem LoopStep.standing (hq : s.Queued) (howned : Owned J w s) (hs : LoopStep s e s') (he : ¬ e.Closes J)
    (hst : Standing J w s) : Standing J (w ++ [e]) s' := by
  unfold Standing at hst
  cases hs with
  | receive hloop =>
    rw [hloop] at hst
    exact (process_processed s _).standing hloop hst
  | @send o queue next link env hloop _ _ hsend =>
    have ho := hq.queue hloop List.mem_cons_self
    rw [hloop] at hst
    obtain ⟨rfl, -⟩ := HostLink.send_eq_ok hsend
    have hother : Running J w s → (∀ jobId, next = .remove jobId → jobId ≠ J) →
        (∀ o' deadline, next ≠ .clear o' deadline) →
        Running J (w ++ [.sent (s.link.identity.stamp s.link.sender.nextMessageId o)])
          { s with link, loop := .sending queue next } := by
      intro hr hremove hclear
      obtain ⟨⟨job, hl, -⟩, -⟩ := id hr
      exact hr.keep (silent_of_sends ho (by simp [hl]) hremove hclear) rfl
    cases next with
    | head => exact hother hst (by simp) (by simp)
    | spawn job =>
      unfold Standing
      by_cases hj : job.jobId = J
      · simp only [if_pos hj] at hst
        cases hst.1
      · simp only [if_neg hj] at hst ⊢
        exact hother hst (by simp) (by simp)
    | remove jobId =>
      unfold Standing
      by_cases hj : jobId = J
      · simp only [if_pos hj] at hst ⊢
        obtain ⟨output, hjoined, hst⟩ := hst
        refine ⟨output, hjoined.snoc _, ?_⟩
        have hexp : expected J (w ++ [.sent (s.link.identity.stamp s.link.sender.nextMessageId o)]) output =
            expected J w output := by
          unfold expected
          rw [filterMap_snoc_of_none rfl]
        rw [hexp]
        exact hst.send
      · simp only [if_neg hj] at hst ⊢
        exact hother hst (by simp [hj]) (by simp)
    | clear o' deadline => exact Settling.send hst
  | resume hloop =>
    rw [hloop] at hst
    exact Running.keep hst ⟨rfl, rfl, rfl⟩ rfl
  | @spawn job hloop hinactive =>
    rw [hloop] at hst
    by_cases hj : job.jobId = J
    · subst hj
      simp only [if_true] at hst
      obtain ⟨-, ⟨hu, ha⟩, hc⟩ := hst
      simp only [List.filterMap_nil, List.append_nil] at hu ha
      refine ⟨⟨_, AList.lookup_insert _, ?_⟩, ?_, ?_⟩
      · rw [filterMap_snoc_of_none rfl, hc]
        rfl
      · rw [filterMap_snoc_of_none rfl, ha, hc]
      · rw [filterMap_snoc_of_none rfl, hu]
    · simp only [if_neg hj] at hst
      exact Running.keep hst ⟨rfl, rfl, rfl⟩ (AList.lookup_insert_ne (Ne.symm hj))
  | @join i jobId output jobs queue hloop _ hmem hsettle =>
    rw [hloop] at hst
    obtain ⟨job, hl, rfl, rfl⟩ := JobManager.settle_join hsettle
    unfold Standing
    by_cases hj : jobId = J
    · subst hj
      simp only [if_true]
      obtain ⟨⟨job', hl', hc⟩, ha, hu⟩ := hst
      rw [hl] at hl'
      cases hl'
      obtain ⟨hsu, hsa⟩ := settlement_of_labels output fun c hc => hq.labels hl hc
      have hended : .task i jobId (.ended (.ok output)) ∈ w := howned _ hmem rfl output rfl
      refine ⟨output, ⟨i, List.mem_append_left _ hended, by simp⟩, ?_, ?_⟩
      · unfold expected
        rw [filterMap_snoc_of_none rfl, filterMap_snoc_of_none rfl, hu, List.nil_append, hsu, hc]
      · rw [filterMap_snoc_of_none rfl, filterMap_snoc_of_none rfl, ha, List.nil_append, hsa, hc]
    · simp only [if_neg hj]
      exact Running.keep hst ⟨rfl, rfl, rfl⟩ (AList.lookup_insert_ne (Ne.symm hj))
  | @remove jobId job hloop _ =>
    rw [hloop] at hst
    have hj : jobId ≠ J := he
    simp only [if_neg hj] at hst
    exact Running.keep hst ⟨rfl, rfl, rfl⟩ (AList.lookup_erase_ne (Ne.symm hj))
  | drain hloop =>
    rw [hloop] at hst
    unfold Standing
    simp only [hloop]
    exact Running.keep hst ⟨rfl, rfl, rfl⟩ rfl
  | @takeCancellations o deadline entries hloop _ hperm =>
    rw [hloop] at hst
    obtain ⟨⟨job, hl, hc⟩, ha, hu⟩ := hst
    have hnd : (entries.map Prod.fst).Nodup := by
      rw [(hperm.map Prod.fst).nodup_iff, AList.map_fst_toPairs]
      exact s.jobs.active.nodupKeys
    have hacks := acknowledgements_of_mem (fun entry hentry c hc =>
        hq.labels (AList.lookup_eq_some_iff.2 (hperm.subset hentry)) hc) hnd
      (hperm.symm.subset (AList.lookup_eq_some_iff.1 hl))
    refine ⟨?_, ?_⟩
    · rw [filterMap_snoc_of_none rfl, hu, updates_acknowledgements]
      rfl
    · rw [filterMap_snoc_of_none rfl, filterMap_snoc_of_none rfl, ha, hacks, hc]
      rfl
  | clear => exact absurd trivial he
  | _ => trivial

theorem Step.standing (hq : s.Queued) (howned : Owned J w s) (hs : Step s e s') (he : ¬ e.Closes J)
    (hst : Standing J w s) : Standing J (w ++ [e]) s' := by
  have hframe : Frame s s' → Silent J e → Standing J (w ++ [e]) s' := by
    intro hf hsilent
    unfold Standing at hst ⊢
    rw [hf.loop]
    have hkeep : Running J w s → Running J (w ++ [e]) s' := fun hr => hr.keep hsilent (by rw [hf.active])
    split at hst <;> try exact hkeep hst
    · split at hst
      · rename_i hj
        rw [if_pos hj, filterMap_snoc_of_none hsilent.cancels]
        exact ⟨hst.1, hst.2.1.keep hsilent, hst.2.2⟩
      · rename_i hj
        rw [if_neg hj]
        exact hkeep hst
    · split at hst
      · rename_i hj
        rw [if_pos hj]
        obtain ⟨output, hjoined, hst⟩ := hst
        refine ⟨output, hjoined.snoc e, ?_⟩
        unfold expected at hst ⊢
        rw [filterMap_snoc_of_none hsilent.cancels]
        exact hst.keep hsilent
      · rename_i hj
        rw [if_neg hj]
        exact hkeep hst
    · exact hst.keep hsilent
    all_goals trivial
  cases hs with
  | loop hs => exact hs.standing hq howned he hst
  | task hs => exact hframe hs.frame (by cases hs <;> exact ⟨rfl, rfl, rfl⟩)
  | context hs => exact hframe hs.frame (by cases hs <;> exact ⟨rfl, rfl, rfl⟩)

end Serve

end PluginSdk
