import PluginSdk.Queue
import PluginSdk.Replies

/-!
# The order of the replies

Replies leave in the order of their requests, except that the acknowledgement of a cancellation may wait for its job
to be settled.  So a reply to a later request comes first only if an acknowledgement has waited, and never a reply
that names the same job (`Serve.replies_in_order`).  For each job the IDs on the wire, those in the queue of the
loop and those of the pending cancellations stand in one increasing line (`Serve.InLine`).
-/

namespace PluginSdk

open Lts

/-- The request that a reply answers, if the reply accepts the job or acknowledges a cancellation of it. -/
def Reply.naming (jobId : String) (r : Reply) : Option Nat :=
  match r.payload with
  | some (.jobAccepted ⟨some id⟩) | some (.cancelJobAcknowledged ⟨some id⟩) =>
    if id.value = jobId then some r.replyTo else none
  | _ => none

private theorem naming_eq {jobId : String} {r : Reply} {k : Nat} (h : r.naming jobId = some k) : r.replyTo = k := by
  unfold Reply.naming at h
  split at h
  · split_ifs at h
    exact Option.some.inj h
  · split_ifs at h
    exact Option.some.inj h
  · cases h

/-- The payload acknowledges a cancellation. -/
def Payload.OfCancellation (p : Payload) : Prop := ∃ jobId, p = .cancelJobAcknowledged ⟨some ⟨jobId⟩⟩

/-- The requests that the replies among some messages answer, if they name the job. -/
def naming (jobId : String) (queue : List Outgoing) : List Nat :=
  (queue.filterMap Outgoing.reply).filterMap (Reply.naming jobId)

/-- The cancellations of the job that are to be acknowledged. -/
def waiting (active : Table String ActiveJob) (jobId : String) : List Nat :=
  match active.lookup jobId with
  | some job => job.cancellations.map (·.replyTo)
  | none => []

def Loop.queue : Loop → List Outgoing
  | .sending queue _ => queue
  | _ => []

private theorem naming_append (jobId : String) (q₁ q₂ : List Outgoing) :
    naming jobId (q₁ ++ q₂) = naming jobId q₁ ++ naming jobId q₂ := by
  simp only [naming, List.filterMap_append]

private theorem naming_acknowledgements {jobId jobId' : String} {cancellations : List PendingCancellation}
    (hlabels : ∀ c ∈ cancellations, c.jobId = ⟨jobId'⟩) :
    naming jobId (cancellations.map (·.acknowledgement)) =
      if jobId' = jobId then cancellations.map (·.replyTo) else [] := by
  induction cancellations with
  | nil => simp [naming]
  | cons c rest ih =>
    have hc : c.jobId = ⟨jobId'⟩ := hlabels c (by simp)
    have hone : naming jobId [c.acknowledgement] = if jobId' = jobId then [c.replyTo] else [] := by
      simp only [naming, PendingCancellation.acknowledgement, Outgoing.reply, Option.map_some, List.filterMap_cons,
        List.filterMap_nil, Reply.naming, hc]
      split_ifs <;> rfl
    rw [List.map_cons, ← List.singleton_append, naming_append, hone, ih fun c' hc' => hlabels c' (by simp [hc'])]
    split_ifs <;> simp

private theorem waiting_of_lookup {active : Table String ActiveJob} {jobId : String} {job : ActiveJob}
    (h : active.lookup jobId = some job) : waiting active jobId = job.cancellations.map (·.replyTo) := by
  simp only [waiting, h]

private theorem waiting_of_none {active : Table String ActiveJob} {jobId : String} (h : active.lookup jobId = none) :
    waiting active jobId = [] := by
  simp only [waiting, h]

private theorem waiting_insert {active : Table String ActiveJob} {jobId jobId' : String} {job : ActiveJob} :
    waiting (active.insert jobId' job) jobId =
      if jobId' = jobId then job.cancellations.map (·.replyTo) else waiting active jobId := by
  split_ifs with heq
  · subst heq
    exact waiting_of_lookup (AList.lookup_insert _)
  · simp only [waiting, AList.lookup_insert_ne (Ne.symm heq)]

private theorem waiting_erase {active : Table String ActiveJob} {jobId jobId' : String} :
    (waiting (active.erase jobId') jobId).Sublist (waiting active jobId) := by
  by_cases heq : jobId = jobId'
  · subst heq
    rw [waiting_of_none (AList.lookup_erase ..)]
    exact List.nil_sublist _
  · simp only [waiting, AList.lookup_erase_ne heq]
    exact .refl _

private theorem naming_settlement {jobId jobId' : String} {job : ActiveJob} {output : Output}
    (hlabels : ∀ c ∈ job.cancellations, c.jobId = ⟨jobId'⟩) :
    naming jobId (JobManager.settlement jobId' job output) =
      if jobId' = jobId then job.cancellations.map (·.replyTo) else [] := by
  unfold JobManager.settlement
  split
  · rename_i hnone
    rw [hnone]
    split_ifs <;> rfl
  · exact naming_acknowledgements hlabels

/-- The acknowledgements of one job among those of some entries of the table. -/
private theorem naming_acknowledgements_entries {active : Table String ActiveJob}
    {entries : List (String × ActiveJob)} {jobId : String} (hnodup : (entries.map Prod.fst).Nodup)
    (hentries : ∀ entry ∈ entries, active.lookup entry.1 = some entry.2)
    (hlabels : ∀ {jobId' job c}, active.lookup jobId' = some job → c ∈ job.cancellations → c.jobId = ⟨jobId'⟩) :
    naming jobId (JobManager.acknowledgements entries) =
      if jobId ∈ entries.map Prod.fst then waiting active jobId else [] := by
  induction entries with
  | nil => rfl
  | cons entry rest ih =>
    rw [List.map_cons, List.nodup_cons] at hnodup
    have hlookup := hentries entry (by simp)
    have hfirst := @naming_acknowledgements jobId _ _ fun c hc => hlabels hlookup hc
    have hrest := ih hnodup.2 fun entry' hentry' => hentries entry' (List.mem_cons_of_mem _ hentry')
    rw [JobManager.acknowledgements, List.flatMap_cons, naming_append, hfirst]
    change _ ++ naming jobId (JobManager.acknowledgements rest) = _
    rw [hrest]
    by_cases heq : entry.1 = jobId
    · rw [heq] at hnodup
      rw [if_pos heq, if_neg hnodup.1, if_pos (by simp [heq]), List.append_nil, waiting_of_lookup (heq ▸ hlookup)]
    · rw [if_neg heq, List.nil_append]
      simp only [List.map_cons, List.mem_cons, Ne.symm heq, false_or]

/-- Whatever the order of the jobs, those of one job are acknowledged in the order of their requests. -/
private theorem naming_acknowledgements_perm {active : Table String ActiveJob} {entries : List (String × ActiveJob)}
    (hperm : entries.Perm active.toPairs) {jobId : String}
    (hlabels : ∀ {jobId' job c}, active.lookup jobId' = some job → c ∈ job.cancellations → c.jobId = ⟨jobId'⟩) :
    naming jobId (JobManager.acknowledgements entries) = waiting active jobId := by
  have hnodup : (entries.map Prod.fst).Nodup := by
    rw [(hperm.map Prod.fst).nodup_iff, AList.map_fst_toPairs]
    exact active.nodupKeys
  have hentries : ∀ entry ∈ entries, active.lookup entry.1 = some entry.2 := fun entry hentry =>
    AList.lookup_eq_some_iff.2 (hperm.subset hentry)
  rw [naming_acknowledgements_entries hnodup hentries hlabels]
  split_ifs with hmem
  · rfl
  · refine (waiting_of_none ?_).symm
    rw [AList.lookup_eq_none, AList.mem_keys, ← AList.map_fst_toPairs]
    exact fun h => hmem ((hperm.map Prod.fst).mem_iff.2 h)

namespace Serve

variable {s s' : Serve} {e : ServeEvent} {h : List ServeEvent} {setup : Setup} {jobId : String}

/-- The requests whose replies name the job: those on the wire, those in the queue, and those that wait for the
job. -/
def line (s : Serve) (jobId : String) : List Nat :=
  (s.link.wire.filterMap PluginEnvelope.reply).filterMap (Reply.naming jobId) ++
    (naming jobId s.loop.queue ++ waiting s.jobs.active jobId)

/-- The line is increasing, and ends before the next request. -/
structure InLine (s : Serve) (jobId : String) : Prop where
  increasing : (s.line jobId).Pairwise (· < ·)
  last : ∀ k ∈ s.line jobId, k ≤ s.session.lastHostMessageId

private theorem InLine.sublist (hl : s.InLine jobId) (hsub : (s'.line jobId).Sublist (s.line jobId))
    (hlast : s.session.lastHostMessageId ≤ s'.session.lastHostMessageId) : s'.InLine jobId :=
  ⟨hl.increasing.sublist hsub, fun k hk => (hl.last k (hsub.subset hk)).trans hlast⟩

private theorem InLine.of_eq (hl : s.InLine jobId) (heq : s'.line jobId = s.line jobId)
    (hlast : s.session.lastHostMessageId ≤ s'.session.lastHostMessageId) : s'.InLine jobId :=
  hl.sublist (by rw [heq]) hlast

/-- A new request lines up. -/
private theorem InLine.snoc (hl : s.InLine jobId) {k : Nat} (hline : s'.line jobId = s.line jobId ++ [k])
    (hlt : s.session.lastHostMessageId < k) (hlast : s'.session.lastHostMessageId = k) : s'.InLine jobId := by
  refine ⟨?_, fun j hj => ?_⟩
  · rw [hline, List.pairwise_append]
    refine ⟨hl.increasing, by simp, fun j hj j' hj' => ?_⟩
    rw [List.mem_singleton.1 hj']
    exact (hl.last j hj).trans_lt hlt
  · rw [hline] at hj
    rw [hlast]
    rcases List.mem_append.1 hj with hj | hj
    · exact (hl.last j hj).trans hlt.le
    · rw [List.mem_singleton.1 hj]

/-! ### The steps -/

private theorem Processed.inLine {envelope : PluginEnvelope} {call : Option Nat} (hp : Processed s envelope s' call)
    (hloop : s.loop = .head) (hl : s.InLine jobId) : s'.InLine jobId := by
  have hwire : s'.link.wire = s.link.wire := by
    obtain ⟨pending, heq⟩ := hp.link
    rw [heq]
  have hlast := hp.last_le
  have hline : ∀ rest, naming jobId s'.loop.queue ++ waiting s'.jobs.active jobId =
    waiting s.jobs.active jobId ++ rest →
      s'.line jobId = s.line jobId ++ rest := by
    intro rest heq
    unfold line
    rw [hwire, heq, hloop, show naming jobId Loop.head.queue = [] from rfl, List.nil_append, List.append_assoc]
  have hkeep : naming jobId s'.loop.queue ++ waiting s'.jobs.active jobId = waiting s.jobs.active jobId →
      s'.InLine jobId := by
    intro heq
    refine hl.sublist ?_ hlast
    rw [hline [] (by rw [heq, List.append_nil]), List.append_nil]
  have hnew : ∀ {trace session payload}, s.Request envelope trace session payload → s'.session = session →
      naming jobId s'.loop.queue ++ waiting s'.jobs.active jobId = waiting s.jobs.active jobId ++
      [envelope.messageId] → s'.InLine jobId := by
    intro trace session payload hreq hsession heq
    obtain ⟨hlt, -, -, -, -, hid⟩ := validateEnvelope_eq_ok.1 hreq.valid
    exact hl.snoc (hline _ heq) hlt (by rw [hsession, hid])
  cases hp with
  | failed => exact hkeep rfl
  | replied =>
    refine hkeep ?_
    rw [hloop]
    rfl
  | refused | heartbeat | shutdown => exact hkeep rfl
  | @accepted _ _ _ jobId' _ hreq hok =>
    by_cases heq : jobId' = jobId
    · subst heq
      refine hnew hreq rfl ?_
      rw [waiting_of_none hok.inactive]
      simp [naming, Loop.queue, Outgoing.reply, Reply.naming]
    · refine hkeep ?_
      simp [naming, Loop.queue, Outgoing.reply, Reply.naming, heq]
  | @cancelled _ _ _ jobId' job hreq _ hlookup =>
    by_cases heq : jobId' = jobId
    · subst heq
      refine hnew hreq rfl ?_
      simp only [waiting_insert, if_true, waiting_of_lookup hlookup, List.map_append]
      rfl
    · refine hkeep ?_
      simp only [waiting_insert, if_neg heq]
      rfl
  | @acknowledged _ _ _ jobId' hreq _ hinactive =>
    by_cases heq : jobId' = jobId
    · subst heq
      refine hnew hreq rfl ?_
      rw [waiting_of_none hinactive]
      simp [naming, Loop.queue, Outgoing.reply, Reply.naming]
    · refine hkeep ?_
      simp [naming, Loop.queue, Outgoing.reply, Reply.naming, heq]

/-- A reply that is enqueued moves from the queue to the wire. -/
private theorem line_of_send {o : Outgoing} {queue : List Outgoing} {next : Next}
    (hloop : s.loop = .sending (o :: queue) next) {identity : SessionIdentity} {id : Nat}
    (hwire : s'.link.wire = s.link.wire ++ [identity.stamp id o]) (hloop' : s'.loop = .sending queue next)
    (hactive : s'.jobs.active = s.jobs.active) : s'.line jobId = s.line jobId := by
  unfold line
  rw [hwire, hloop, hloop', hactive, List.filterMap_append, List.filterMap_append, List.append_assoc]
  change _ ++ (naming jobId [o] ++ (naming jobId queue ++ _)) = _ ++ (naming jobId ([o] ++ queue) ++ _)
  rw [naming_append, List.append_assoc]

private theorem LoopStep.inLine (hq : s.Queued) (hs : LoopStep s e s') (hl : s.InLine jobId) : s'.InLine jobId := by
  -- the wire is the same, and nothing is added behind it
  have hrest : s'.link.wire = s.link.wire → s'.session = s.session →
      (naming jobId s'.loop.queue ++ waiting s'.jobs.active jobId).Sublist
        (naming jobId s.loop.queue ++ waiting s.jobs.active jobId) → s'.InLine jobId := by
    intro hwire hsession hsub
    refine hl.sublist ?_ (by rw [hsession])
    unfold line
    rw [hwire]
    exact hsub.append_left _
  have hfail : s'.link.wire = s.link.wire → s'.session = s.session → s'.loop.queue = [] →
      s'.jobs.active = s.jobs.active → s'.InLine jobId := by
    intro hwire hsession hqueue hactive
    refine hrest hwire hsession ?_
    rw [hqueue, hactive]
    exact List.sublist_append_right ..
  cases hs with
  | receive hloop => exact (process_processed s _).inLine hloop hl
  | hostClosed | joinFailed | finishFailed | spawnReplaced | joinUnknown | joinEmpty | removeUnknown | resume
  | finish =>
    exact hfail rfl rfl rfl rfl
  | drain hloop => exact hfail rfl rfl (by rw [hloop]; rfl) rfl
  | sendFailed _ _ hsend | acknowledgeFailed _ _ hsend =>
    refine hfail ?_ rfl rfl rfl
    simp only [fail]
    rw [HostLink.send_eq_error hsend]
  | send hloop _ _ hsend =>
    obtain ⟨rfl, rfl⟩ := HostLink.send_eq_ok hsend
    exact hl.of_eq (line_of_send hloop rfl rfl rfl) le_rfl
  | spawn hloop =>
    refine hrest rfl rfl ?_
    rw [hloop]
    refine (List.Sublist.refl _).append ?_
    simp only [JobManager.spawn, waiting_insert]
    split_ifs
    · exact List.nil_sublist _
    · exact .refl _
  | @join _ jobId' _ _ _ hloop _ _ hsettle =>
    obtain ⟨job, hlookup, rfl, rfl⟩ := JobManager.settle_join hsettle
    refine hrest rfl rfl ?_
    rw [hloop]
    simp only [Loop.queue, naming_settlement fun c hc => hq.labels hlookup hc, waiting_insert]
    split_ifs with heq
    · subst heq
      rw [waiting_of_lookup hlookup]
      simp [naming]
    · exact .refl _
  | remove hloop =>
    refine hrest rfl rfl ?_
    rw [hloop]
    exact (List.Sublist.refl _).append waiting_erase
  | takeCancellations hloop _ hperm =>
    refine hrest rfl rfl ?_
    have hnone : waiting s.jobs.takeCancellations.active jobId = [] := by
      simp only [waiting, JobManager.takeCancellations, AList.lookup_mapValues]
      cases s.jobs.active.lookup jobId <;> rfl
    rw [hloop]
    simp only [Loop.queue, naming_acknowledgements_perm hperm hq.labels, hnone, List.append_nil]
    exact .refl _
  | clear =>
    refine hrest rfl rfl ?_
    exact List.nil_sublist _
  | @acknowledge o deadline link env hloop _ _ hsend =>
    obtain ⟨rfl, rfl⟩ := HostLink.send_eq_ok hsend
    refine hl.sublist ?_ le_rfl
    have hnone : naming jobId [o] = [] := by
      have hp := hq.shutdown (by rw [hloop]; rfl)
      cases hreply : o.replyTo <;> simp [naming, Outgoing.reply, hreply, Reply.naming, hp]
    unfold line
    rw [List.filterMap_append, List.filterMap_append, List.append_assoc, hloop]
    change (_ ++ (naming jobId [o] ++ _)).Sublist _
    rw [hnone]
    exact .refl _

/-- A context enqueues no reply. -/
theorem ContextStep.reply_eq_none (hres : ∀ r, s.link.reserved = some r → r.outgoing.replyTo = none)
    (hs : ContextStep s e s') : e.enqueued.bind PluginEnvelope.reply = none := by
  cases hs with
  | emit _ _ _ hsend =>
    obtain ⟨rfl, -⟩ := HostLink.send_eq_ok hsend
    rfl
  | @commit _ r _ hr =>
    have hnone := hres r hr
    simp [ServeEvent.enqueued, Outgoing.reply, hnone]
  | _ => rfl

private theorem Step.replies (hs : Step s e s') : s'.link.wire.filterMap PluginEnvelope.reply =
    s.link.wire.filterMap PluginEnvelope.reply ++ (e.enqueued.bind PluginEnvelope.reply).toList := by
  rw [hs.wire, List.filterMap_append]
  congr 1
  cases e.enqueued with
  | none => rfl
  | some envelope => cases hr : envelope.reply <;> simp [hr]

private theorem Step.inLine (hq : s.Queued) (hres : ∀ r, s.link.reserved = some r → r.outgoing.replyTo = none)
    (hs : Step s e s') (hl : s.InLine jobId) : s'.InLine jobId := by
  have hreplies := hs.replies
  have hframe : Frame s s' → e.enqueued.bind PluginEnvelope.reply = none → s'.InLine jobId := by
    intro hf hnone
    refine hl.of_eq ?_ (by rw [hf.session])
    unfold line
    rw [hreplies, hnone, hf.loop, hf.active]
    simp
  cases hs with
  | loop hs => exact hs.inLine hq hl
  | task hs => exact hframe hs.frame (by cases hs <;> rfl)
  | context hs => exact hframe hs.frame (hs.reply_eq_none hres)

private theorem inLine (hr : Steps Step (init setup) h s) : s.InLine jobId := by
  refine Steps.history (I := fun _ s => s.InLine jobId) ?_ (fun h s e s' hr hs hl => ?_) hr
  · have hnil : (init setup).line jobId = [] := by
      unfold line
      rw [init_link]
      rfl
    constructor <;> simp [hnil]
  · exact hs.inLine (queued hr) (reserved_replyTo hr) hl

/-! ### Replies that are sent at once -/

/-- All other replies are to the last request. -/
structure Prompt (s : Serve) : Prop where
  queue : ∀ o ∈ s.loop.queue, ∀ k, o.replyTo = some k → o.payload.OfCancellation ∨ k = s.session.lastHostMessageId
  shutdown : ∀ o, s.loop.shutdown = some o → ∀ k, o.replyTo = some k → k = s.session.lastHostMessageId

private theorem Prompt.idle (hqueue : s.loop.queue = []) (hshut : s.loop.shutdown = none) : s.Prompt := by
  constructor
  · rw [hqueue]
    simp
  · simp [hshut]

private theorem Processed.prompt {envelope : PluginEnvelope} {call : Option Nat} (hp : Processed s envelope s' call)
    (hloop : s.loop = .head) : s'.Prompt := by
  have hid : ∀ {trace session payload}, s.Request envelope trace session payload → session.lastHostMessageId =
      envelope.messageId := by
    intro trace session payload hreq
    obtain ⟨-, -, -, -, -, hid⟩ := validateEnvelope_eq_ok.1 hreq.valid
    rw [hid]
  have hone : ∀ {trace session payload answer next}, s.Request envelope trace session payload → s'.session = session →
      s'.loop = .sending [⟨some envelope.messageId, trace, answer⟩] next → s'.loop.shutdown = none → s'.Prompt := by
    intro trace session payload answer next hreq hsession hloop' hshut
    refine ⟨fun o ho k hk => Or.inr ?_, by simp [hshut]⟩
    rw [hloop'] at ho
    obtain rfl := List.mem_singleton.1 ho
    cases hk
    rw [hsession, hid hreq]
  cases hp with
  | failed => exact .idle rfl rfl
  | replied => exact .idle (by rw [hloop]; rfl) (by rw [hloop]; rfl)
  | cancelled => exact .idle rfl rfl
  | accepted hreq | refused hreq | acknowledged hreq | heartbeat hreq => exact hone hreq rfl rfl rfl
  | shutdown hreq =>
    refine ⟨by simp [Loop.queue], fun o ho k hk => ?_⟩
    cases ho
    cases hk
    exact (hid hreq).symm

private theorem LoopStep.prompt (hs : LoopStep s e s') (hp : s.Prompt) : s'.Prompt := by
  cases hs with
  | receive hloop => exact (process_processed s _).prompt hloop
  | @send o queue next _ _ hloop _ _ hsend =>
    obtain ⟨rfl, rfl⟩ := HostLink.send_eq_ok hsend
    refine ⟨fun o' ho' => hp.queue o' ?_, fun o' ho' => hp.shutdown o' ?_⟩
    · rw [hloop]
      exact List.mem_cons_of_mem _ ho'
    · rw [hloop]
      cases next <;> exact ho'
  | @join _ jobId' _ _ _ _ _ _ hsettle =>
    obtain ⟨job, -, rfl, rfl⟩ := JobManager.settle_join hsettle
    refine ⟨fun o ho k hk => ?_, by simp [Loop.shutdown]⟩
    simp only [Loop.queue, JobManager.settlement] at ho
    split at ho
    · obtain rfl := List.mem_singleton.1 ho
      cases hk
    · obtain ⟨c, -, rfl⟩ := List.mem_map.1 ho
      exact Or.inl ⟨c.jobId.value, rfl⟩
  | drain => exact ⟨hp.queue, hp.shutdown⟩
  | takeCancellations hloop =>
    refine ⟨fun o ho k hk => ?_, fun o' ho' => hp.shutdown o' ?_⟩
    · obtain ⟨entry, -, hentry⟩ := List.mem_flatMap.1 ho
      obtain ⟨c, -, rfl⟩ := List.mem_map.1 hentry
      exact Or.inl ⟨c.jobId.value, rfl⟩
    · rw [hloop]
      exact ho'
  | clear hloop =>
    refine ⟨by simp [Loop.queue], fun o' ho' => hp.shutdown o' ?_⟩
    rw [hloop]
    exact ho'
  | _ => exact .idle rfl rfl

private theorem Step.prompt (hs : Step s e s') (hp : s.Prompt) : s'.Prompt := by
  have hframe : Frame s s' → s'.Prompt := by
    intro hf
    refine ⟨?_, ?_⟩
    · rw [hf.loop, hf.session]
      exact hp.queue
    · rw [hf.loop, hf.session]
      exact hp.shutdown
  cases hs with
  | loop hs => exact hs.prompt hp
  | task hs => exact hframe hs.frame
  | context hs => exact hframe hs.frame

private theorem prompt (hr : Steps Step (init setup) h s) : s.Prompt :=
  hr.invariant (fun _ _ _ hs hp => hs.prompt hp) (.idle rfl rfl)

/-- A reply that is enqueued acknowledges a cancellation, or answers the last request. -/
private theorem Step.reply_cases (hp : s.Prompt) (hres : ∀ r, s.link.reserved = some r → r.outgoing.replyTo = none)
    (hs : Step s e s') {r : Reply} (hr : e.enqueued.bind PluginEnvelope.reply = some r) :
    (∃ p, r.payload = some p ∧ p.OfCancellation) ∨ r.replyTo = s.session.lastHostMessageId := by
  have hsent : ∀ {o : Outgoing} {identity : SessionIdentity} {id : Nat}, e = .sent (identity.stamp id o) →
      (∀ k, o.replyTo = some k → o.payload.OfCancellation ∨ k = s.session.lastHostMessageId) →
      (∃ p, r.payload = some p ∧ p.OfCancellation) ∨ r.replyTo = s.session.lastHostMessageId := by
    rintro o identity id rfl ho
    change o.reply = some r at hr
    unfold Outgoing.reply at hr
    obtain ⟨k, hk, rfl⟩ := Option.map_eq_some_iff.1 hr
    exact (ho k hk).imp_left fun h => ⟨_, rfl, h⟩
  cases hs with
  | task hs => cases hs <;> cases hr
  | context hs =>
    rw [hs.reply_eq_none hres] at hr
    cases hr
  | loop hs =>
    cases hs with
    | send hloop _ _ hsend =>
      obtain ⟨rfl, -⟩ := HostLink.send_eq_ok hsend
      exact hsent rfl (hp.queue _ (by rw [hloop]; exact List.mem_cons_self))
    | acknowledge hloop _ _ hsend =>
      obtain ⟨rfl, -⟩ := HostLink.send_eq_ok hsend
      exact hsent rfl fun k hk => Or.inr (hp.shutdown _ (by rw [hloop]; rfl) k hk)
    | _ => cases hr

/-- No reply is to a request that is still to come. -/
private theorem replyTo_le (hr : Steps Step (init setup) h s) {r : Reply}
    (hmem : r ∈ s.link.wire.filterMap PluginEnvelope.reply) : r.replyTo ≤ s.session.lastHostMessageId := by
  obtain ⟨taken, answers, lost, hl⟩ := ledger hr
  have hanswer : r ∈ answers := by
    rw [← Multiset.mem_coe, ← hl.balance, add_assoc]
    exact Multiset.mem_add.2 (Or.inl hmem)
  have hlast := hl.last
  have hanswered := hl.answered
  clear hl
  induction hanswered with
  | nil => cases hanswer
  | @cons request reply _ _ ha _ ih =>
    rcases List.mem_cons.1 hanswer with rfl | hanswer
    · rw [ha.replyTo]
      exact hlast request (by simp)
    · exact ih hanswer fun request hrequest => hlast request (List.mem_cons_of_mem _ hrequest)

private theorem nodup_replies (hr : Steps Step (init setup) h s) :
    ((s.link.wire.filterMap PluginEnvelope.reply).map Reply.replyTo).Nodup := by
  have hnodup := nodup_wire_replyTo hr
  rw [List.map_filterMap]
  convert hnodup using 3 with envelope
  unfold PluginEnvelope.reply
  cases envelope.replyTo <;> rfl

/-- If a reply follows the reply to a later request, it acknowledges a cancellation. -/
theorem prompt_replies (hr : Steps Step (init setup) h s) :
    (s.link.wire.filterMap PluginEnvelope.reply).Pairwise fun r r' =>
      r.replyTo < r'.replyTo ∨ ∃ p, r'.payload = some p ∧ p.OfCancellation := by
  refine Steps.history (I := fun _ s => (s.link.wire.filterMap PluginEnvelope.reply).Pairwise fun r r' =>
      r.replyTo < r'.replyTo ∨ ∃ p, r'.payload = some p ∧ p.OfCancellation) ?_ (fun h s e s' hr hs ih => ?_) hr
  · rw [init_link]
    exact .nil
  · have hnodup := nodup_replies (hr.snoc hs)
    rw [hs.replies] at hnodup ⊢
    cases hreply : e.enqueued.bind PluginEnvelope.reply with
    | none => simpa using ih
    | some r' =>
      refine List.pairwise_append.2 ⟨ih, by simp, fun r hmem r'' hmem' => ?_⟩
      obtain rfl : r'' = r' := by simpa using hmem'
      rcases hs.reply_cases (prompt hr) (reserved_replyTo hr) hreply with hack | hlast
      · exact Or.inr hack
      · left
        have hle := replyTo_le hr hmem
        rw [hreply, List.map_append] at hnodup
        have hne := (List.nodup_append.1 hnodup).2.2 _ (List.mem_map_of_mem hmem) r''.replyTo (by simp)
        omega

/-- Replies are in the order of their requests, but for the acknowledgement of a cancellation that has waited.  It
follows replies to later requests only if these do not name its job. -/
theorem replies_in_order (hr : Steps Step (init setup) h s) :
    (s.link.wire.filterMap PluginEnvelope.reply).Pairwise fun r r' =>
      r.replyTo < r'.replyTo ∨
        ∃ jobId, r'.payload = some (.cancelJobAcknowledged ⟨some ⟨jobId⟩⟩) ∧ r.naming jobId = none := by
  refine List.pairwise_iff_forall_sublist.2 fun {r r'} hsub => ?_
  rcases List.pairwise_iff_forall_sublist.1 (prompt_replies hr) hsub with hlt | ⟨p, hp, jobId, rfl⟩
  · exact Or.inl hlt
  · cases hnames : r.naming jobId with
    | none => exact Or.inr ⟨jobId, hp, hnames⟩
    | some k =>
      left
      -- both name the job, so they stand in its line
      have hinLine : s.InLine jobId := inLine hr
      have hline := hinLine.increasing.sublist (List.sublist_append_left ..)
      have hpair := List.pairwise_iff_forall_sublist.1 (List.pairwise_filterMap.1 hline) hsub
      have hack : r'.naming jobId = some r'.replyTo := by simp [Reply.naming, hp]
      have hlt := hpair k hnames r'.replyTo hack
      rwa [← naming_eq hnames] at hlt

theorem replies_in_order_sampleRun : ∃ s, Steps Step (init sampleSetup) sampleRun s ∧
    (s.link.wire.filterMap PluginEnvelope.reply).Pairwise fun r r' =>
      r.replyTo < r'.replyTo ∨
        ∃ jobId, r'.payload = some (.cancelJobAcknowledged ⟨some ⟨jobId⟩⟩) ∧ r.naming jobId = none := by
  obtain ⟨s, hr⟩ := sampleRun_steps
  exact ⟨s, hr, replies_in_order hr⟩

end Serve

end PluginSdk
