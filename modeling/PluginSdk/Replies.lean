import PluginSdk.JobTable
import PluginSdk.Lib.Since
import Mathlib.Algebra.Order.Group.Multiset
import Mathlib.Tactic.Abel

/-!
# Replies to the host

Every request of the host is answered once.  A reply is sent at once, or waits in the queue of the loop or in the
pending cancellations of an active job.  The replies on the wire together with those still owed are, over every run,
one answer for each request that the loop has taken (`Serve.Ledger`).
-/

namespace PluginSdk

open Lts

/-- A reply to a request of the host. -/
structure Reply where
  replyTo : Nat
  trace : Option TraceContext
  payload : Option Payload

def Outgoing.reply (o : Outgoing) : Option Reply := o.replyTo.map fun k => ⟨k, some o.trace, some o.payload⟩

def PluginEnvelope.reply (envelope : PluginEnvelope) : Option Reply :=
  envelope.replyTo.map fun k => ⟨k, envelope.trace, envelope.payload⟩

@[simp] theorem SessionIdentity.stamp_reply (identity : SessionIdentity) (id : Nat) (o : Outgoing) :
    (identity.stamp id o).reply = o.reply := rfl

/-- The payload that answers a request. -/
def AnswerPayload (maximum : Nat) (request answer : Payload) : Prop :=
  match request with
  | .startJob request =>
    answer = .jobAccepted ⟨request.jobId⟩ ∨ ∃ error, answer = .protocolError error ∧ error.OfCapacity maximum
  | .cancelJob request => answer = .cancelJobAcknowledged ⟨request.jobId⟩
  | .heartbeat heartbeat => answer = .heartbeat heartbeat
  | .shutdown _ => answer = .shutdownAcknowledged
  | _ => False

/-- The reply answers the request, under its trace. -/
structure Answers (maximum : Nat) (request : PluginEnvelope) (reply : Reply) : Prop where
  replyTo : reply.replyTo = request.messageId
  trace : reply.trace = request.trace
  payload : ∃ p q, request.payload = some p ∧ reply.payload = some q ∧ AnswerPayload maximum p q

/-- The request that an event takes. -/
def ServeEvent.request : ServeEvent → Option PluginEnvelope
  | .received envelope _ => if envelope.replyTo = none then some envelope else none
  | _ => none

/-- The requests of the host, in order. -/
def requests (h : List ServeEvent) : List PluginEnvelope := h.filterMap ServeEvent.request

/-- The loop takes an envelope. -/
def ServeEvent.Receives : ServeEvent → Prop
  | .received _ _ => True
  | _ => False

/-- The loop takes a request to shut down. -/
def ServeEvent.ShutsDown : ServeEvent → Prop
  | .received envelope _ => envelope.replyTo = none ∧ ∃ request, envelope.payload = some (.shutdown request)
  | _ => False

/-! ### Replies that are owed -/

/-- The replies among some messages. -/
def repliesOf (queue : List Outgoing) : Multiset Reply := queue.filterMap Outgoing.reply

@[simp] theorem repliesOf_nil : repliesOf [] = 0 := rfl

private theorem repliesOf_append (q₁ q₂ : List Outgoing) : repliesOf (q₁ ++ q₂) = repliesOf q₁ + repliesOf q₂ := by
  rw [repliesOf, List.filterMap_append, ← Multiset.coe_add]
  rfl

private theorem repliesOf_cons (o : Outgoing) (queue : List Outgoing) :
    repliesOf (o :: queue) = repliesOf [o] + repliesOf queue := repliesOf_append [o] queue

private theorem repliesOf_singleton (o : Outgoing) : repliesOf [o] = (o.reply.toList : List Reply) := by
  cases h : o.reply <;> simp [repliesOf, h]

private theorem repliesOf_perm {q₁ q₂ : List Outgoing} (h : q₁.Perm q₂) : repliesOf q₁ = repliesOf q₂ :=
  Multiset.coe_eq_coe.2 (h.filterMap _)

/-- The acknowledgements that the pending cancellations of a table will get. -/
def pendingReplies (active : Table String ActiveJob) : Multiset Reply :=
  repliesOf (JobManager.acknowledgements active.toPairs)

section Pending

variable {active : Table String ActiveJob} {J : String} {job job' : ActiveJob}

private theorem repliesOf_acknowledgements {l₁ l₂ : List (String × ActiveJob)} (h : l₁.Perm l₂) :
    repliesOf (JobManager.acknowledgements l₁) = repliesOf (JobManager.acknowledgements l₂) :=
  repliesOf_perm (h.flatMap_right _)

private theorem pendingReplies_erase (h : active.lookup J = some job) :
    pendingReplies active = repliesOf (job.cancellations.map (·.acknowledgement)) + pendingReplies
      (active.erase J) := by
  rw [pendingReplies, repliesOf_acknowledgements (AList.toPairs_perm_erase h), JobManager.acknowledgements,
    List.flatMap_cons, repliesOf_append]
  rfl

private theorem pendingReplies_insert (active : Table String ActiveJob) (J : String) (job : ActiveJob) :
    pendingReplies (active.insert J job) =
      repliesOf (job.cancellations.map (·.acknowledgement)) + pendingReplies (active.erase J) := by
  rw [pendingReplies, JobManager.acknowledgements, AList.toPairs_insert, List.flatMap_cons, repliesOf_append]
  rfl

private theorem pendingReplies_insert_new (h : active.lookup J = none) (hc : job.cancellations = []) :
    pendingReplies (active.insert J job) = pendingReplies active := by
  rw [pendingReplies_insert, AList.erase_of_notMem (AList.lookup_eq_none.1 h), hc, List.map_nil,
    repliesOf_nil, zero_add]

private theorem pendingReplies_erase_insert (active : Table String ActiveJob) (J : String) (job : ActiveJob) :
    pendingReplies ((active.insert J job).erase J) = pendingReplies (active.erase J) := by
  have h := pendingReplies_erase (AList.lookup_insert (a := J) (b := job) active)
  rw [pendingReplies_insert] at h
  exact (add_left_cancel h).symm

private theorem repliesOf_settlement (jobId : String) (job : ActiveJob) (output : Output) :
    repliesOf (JobManager.settlement jobId job output) = repliesOf (job.cancellations.map (·.acknowledgement)) := by
  unfold JobManager.settlement
  split
  · rename_i h
    rw [h]
    rfl
  · rfl

end Pending

namespace Serve

/-- The replies that the loop still has to send. -/
def owed (s : Serve) : Multiset Reply :=
  match s.loop with
  | .head => pendingReplies s.jobs.active
  | .sending queue .head | .sending queue (.spawn _) => repliesOf queue + pendingReplies s.jobs.active
  | .sending queue (.remove jobId) => repliesOf queue + pendingReplies (s.jobs.active.erase jobId)
  | .sending queue (.clear o _) => repliesOf queue + repliesOf [o]
  | .draining o _ => repliesOf [o] + pendingReplies s.jobs.active
  | .acknowledging o _ => repliesOf [o]
  | .consuming _ _ | .returned _ | .panicked _ => 0

/-- The replies on the wire. -/
def replied (s : Serve) : Multiset Reply := s.link.wire.filterMap PluginEnvelope.reply

/-- The loop has ended with an error. -/
def Failed (s : Serve) : Prop :=
  match s.loop with
  | .returned (.error _) | .panicked _ => True
  | _ => False

/-! ### The conservation of replies -/

/-- The requests `taken` by the loop and one answer for each: it is on the wire, or owed, or lost with a failed
loop. -/
structure Ledger (h : List ServeEvent) (s : Serve) (taken : List PluginEnvelope) (answers : List Reply)
    (lost : Multiset Reply) : Prop where
  sublist : taken.Sublist (requests h)
  complete : ¬ s.Failed → taken = requests h ∧ lost = 0
  increasing : (taken.map (·.messageId)).Pairwise (· < ·)
  last : ∀ request ∈ taken, request.messageId ≤ s.session.lastHostMessageId
  answered : List.Forall₂ (Answers s.jobs.maximumConcurrentJobs) taken answers
  balance : s.replied + s.owed + lost = answers

variable {s s' : Serve} {e : ServeEvent} {h : List ServeEvent} {taken : List PluginEnvelope} {answers : List Reply}
  {lost : Multiset Reply}

private theorem requests_snoc (h : List ServeEvent) (e : ServeEvent) :
    requests (h ++ [e]) = requests h ++ e.request.toList :=
  filterMap_snoc ..

/-- A step that takes no request moves replies from the owed ones to the wire. -/
private theorem Ledger.move (hl : Ledger h s taken answers lost) (he : e.request = none)
    (hbalance : s'.replied + s'.owed = s.replied + s.owed)
    (hlast : s.session.lastHostMessageId ≤ s'.session.lastHostMessageId)
    (hmax : s'.jobs.maximumConcurrentJobs = s.jobs.maximumConcurrentJobs) (hloop : s.Failed → s'.Failed) :
    Ledger (h ++ [e]) s' taken answers lost := by
  have hreq : requests (h ++ [e]) = requests h := by rw [requests_snoc, he]; simp
  refine ⟨hreq ▸ hl.sublist, fun hn => hreq ▸ hl.complete fun hf => hn (hloop hf), hl.increasing,
    fun r hr => (hl.last r hr).trans hlast, hmax ▸ hl.answered, ?_⟩
  rw [hbalance]
  exact hl.balance

/-- When the loop fails, what it owes is lost. -/
private theorem Ledger.fail (hl : Ledger h s taken answers lost) (hloop : s'.Failed)
    (hreplied : s'.replied = s.replied) (howed : s'.owed = 0)
    (hlast : s.session.lastHostMessageId ≤ s'.session.lastHostMessageId)
    (hmax : s'.jobs.maximumConcurrentJobs = s.jobs.maximumConcurrentJobs) :
    Ledger (h ++ [e]) s' taken answers (s.owed + lost) := by
  refine ⟨hl.sublist.trans ?_, fun hn => absurd hloop hn, hl.increasing,
    fun r hr => (hl.last r hr).trans hlast, hmax ▸ hl.answered, ?_⟩
  · rw [requests_snoc]
    exact List.sublist_append_left _ _
  · rw [hreplied, howed, ← hl.balance]
    abel

/-- A request is taken together with its answer. -/
private theorem Ledger.take (hl : Ledger h s taken answers lost) {request : PluginEnvelope} {reply : Reply}
    (he : e.request = some request) (hloop : ¬ s.Failed)
    (hlast : s.session.lastHostMessageId < request.messageId)
    (hsession : s'.session.lastHostMessageId = request.messageId)
    (hmax : s'.jobs.maximumConcurrentJobs = s.jobs.maximumConcurrentJobs)
    (ha : Answers s.jobs.maximumConcurrentJobs request reply)
    (hbalance : s'.replied + s'.owed = s.replied + s.owed + {reply}) :
    Ledger (h ++ [e]) s' (taken ++ [request]) (answers ++ [reply]) lost := by
  have hreq : requests (h ++ [e]) = requests h ++ [request] := by rw [requests_snoc, he]; rfl
  refine ⟨hreq ▸ hl.sublist.append_right _, fun _ => ?_, ?_, fun r hr => ?_, ?_, ?_⟩
  · obtain ⟨htaken, hlost⟩ := hl.complete hloop
    exact ⟨by rw [hreq, htaken], hlost⟩
  · rw [List.map_append, List.pairwise_append]
    refine ⟨hl.increasing, by simp, fun a ha b hb => ?_⟩
    obtain ⟨r, hr, rfl⟩ := List.mem_map.1 ha
    have hle := hl.last r hr
    simp only [List.map_cons, List.map_nil, List.mem_singleton] at hb
    omega
  · rw [hsession]
    rcases List.mem_append.1 hr with hr | hr
    · exact (hl.last r hr).trans hlast.le
    · rw [List.mem_singleton.1 hr]
  · rw [hmax]
    exact List.rel_append hl.answered (.cons ha .nil)
  · rw [hbalance, ← Multiset.coe_add, ← hl.balance]
    simp only [Multiset.coe_singleton]
    abel

theorem Step.replied (hs : Step s e s') :
    s'.replied = s.replied + ((e.enqueued.bind PluginEnvelope.reply).toList : List Reply) := by
  rw [Serve.replied, hs.wire, List.filterMap_append, ← Multiset.coe_add]
  congr 2
  cases e.enqueued with
  | none => rfl
  | some envelope => cases hr : envelope.reply <;> simp [hr]

private theorem replied_of_wire (hw : s'.link.wire = s.link.wire) : s'.replied = s.replied := by
  rw [Serve.replied, hw]
  rfl

private theorem Processed.ledger {envelope : PluginEnvelope} {call : Option Nat} (hp : Processed s envelope s' call)
    (hloop : s.loop = .head) (hl : Ledger h s taken answers lost) :
    ∃ taken' answers' lost', Ledger (h ++ [.received envelope call]) s' taken' answers' lost' := by
  have hrun : ¬ s.Failed := by simp [Failed, hloop]
  have howed : s.owed = pendingReplies s.jobs.active := by simp [owed, hloop]
  have hreplied : s'.replied = s.replied := by
    obtain ⟨pending, heq⟩ := hp.link
    exact replied_of_wire (by rw [heq])
  -- the requests: the answer is the one reply that the loop or the table comes to owe
  have htake : ∀ {trace session payload}, s.Request envelope trace session payload → s'.session = session →
      s'.jobs.maximumConcurrentJobs = s.jobs.maximumConcurrentJobs → ∀ answer,
      AnswerPayload s.jobs.maximumConcurrentJobs payload answer →
      s'.owed = s.owed + repliesOf [⟨some envelope.messageId, trace, answer⟩] →
      ∃ taken' answers' lost', Ledger (h ++ [.received envelope call]) s' taken' answers' lost' := by
    intro trace session payload hreq hs hmax answer hanswer ho
    obtain ⟨hlt, -, -, htrace, -, hsession⟩ := validateEnvelope_eq_ok.1 hreq.valid
    have ha : Answers s.jobs.maximumConcurrentJobs envelope ⟨envelope.messageId, some trace, some answer⟩ :=
      ⟨rfl, htrace.symm, payload, answer, hreq.payload, rfl, hanswer⟩
    refine ⟨_, _, _, hl.take (by simp [ServeEvent.request, hreq.replyTo]) hrun hlt (by rw [hs, hsession]) hmax ha ?_⟩
    rw [hreplied, ho, add_assoc]
    rfl
  have hlast := hp.last_le
  cases hp with
  | failed => exact ⟨_, _, _, hl.fail trivial hreplied rfl hlast rfl⟩
  | replied _ hr =>
    refine ⟨_, _, _, hl.move (by simp [ServeEvent.request, hr]) ?_ hlast rfl fun hf => absurd hf hrun⟩
    rw [hreplied, howed]
    simp [owed, hloop]
  | @accepted session trace request jobId invocation hreq hok =>
    refine htake hreq rfl rfl (.jobAccepted ⟨some ⟨jobId⟩⟩) (Or.inl ?_) ?_
    · rw [Validation.jobId_eq_ok hok.id]
    · rw [howed]
      exact add_comm _ _
  | refused hreq =>
    refine htake hreq rfl rfl _ (Or.inr ⟨_, rfl, capacityError_ofCapacity _⟩) ?_
    rw [howed]
    exact add_comm _ _
  | @cancelled session trace request jobId job hreq hid hlookup =>
    refine htake hreq rfl rfl (.cancelJobAcknowledged ⟨some ⟨jobId⟩⟩) ?_ ?_
    · rw [← hid]
      rfl
    · rw [howed, pendingReplies_erase hlookup]
      change repliesOf [] + pendingReplies (s.jobs.active.insert jobId _) = _
      rw [pendingReplies_insert, List.map_append, repliesOf_append, repliesOf_nil, zero_add]
      exact add_right_comm _ _ _
  | @acknowledged session trace request jobId hreq hid =>
    refine htake hreq rfl rfl (.cancelJobAcknowledged ⟨some ⟨jobId⟩⟩) ?_ ?_
    · rw [← hid]
      rfl
    · rw [howed]
      exact add_comm _ _
  | heartbeat hreq =>
    refine htake hreq rfl rfl _ rfl ?_
    rw [howed]
    exact add_comm _ _
  | shutdown hreq =>
    refine htake hreq rfl rfl _ rfl ?_
    rw [howed]
    exact add_comm _ _

/-- Sending moves a reply from the queue to the wire. -/
private theorem owed_of_send {o : Outgoing} {queue : List Outgoing} {next : Next}
    (hloop : s.loop = .sending (o :: queue) next) (hloop' : s'.loop = .sending queue next)
    (hactive : s'.jobs.active = s.jobs.active) : s.owed = repliesOf [o] + s'.owed := by
  unfold owed
  rw [hloop, hloop']
  cases next <;> simp only [repliesOf_cons o queue, hactive, add_assoc]

private theorem LoopStep.ledger (hm : s.Matched) (hs : LoopStep s e s') (hl : Ledger h s taken answers lost) :
    ∃ taken' answers' lost', Ledger (h ++ [e]) s' taken' answers' lost' := by
  have hreplied := (Step.loop hs).replied
  have hm' := (hs.matched hm).agree
  have hkeep : e.request = none → s'.session = s.session →
      s'.jobs.maximumConcurrentJobs = s.jobs.maximumConcurrentJobs → (s.Failed → s'.Failed) → e.enqueued = none →
      s'.owed = s.owed → ∃ taken' answers' lost', Ledger (h ++ [e]) s' taken' answers' lost' := by
    intro he hsession hmax hf hnone ho
    refine ⟨_, _, _, hl.move he ?_ (by rw [hsession]) hmax hf⟩
    rw [hreplied, hnone, ho]
    simp
  have hfail : s'.Failed → s'.session = s.session →
      s'.jobs.maximumConcurrentJobs = s.jobs.maximumConcurrentJobs → e.enqueued = none → s'.owed = 0 →
      ∃ taken' answers' lost', Ledger (h ++ [e]) s' taken' answers' lost' := by
    intro hf hsession hmax hnone ho
    refine ⟨_, _, _, hl.fail hf ?_ ho (by rw [hsession]) hmax⟩
    rw [hreplied, hnone]
    simp
  cases hs with
  | receive hloop => exact (process_processed s _).ledger hloop hl
  | hostClosed => exact hfail trivial rfl rfl rfl rfl
  | sendFailed => exact hfail trivial rfl rfl rfl rfl
  | joinFailed => exact hfail trivial rfl rfl rfl rfl
  | acknowledgeFailed => exact hfail trivial rfl rfl rfl rfl
  | finishFailed => exact hfail trivial rfl rfl rfl rfl
  | spawnReplaced => exact hm'.elim
  | joinUnknown => exact hm'.elim
  | joinEmpty => exact hm'.elim
  | removeUnknown => exact hm'.elim
  | @send o queue next link env hloop _ _ hsend =>
    refine ⟨_, _, _, hl.move rfl ?_ le_rfl rfl (by simp [Failed, hloop])⟩
    have ho : s.owed = repliesOf [o] + Serve.owed { s with link, loop := .sending queue next } :=
      owed_of_send hloop rfl rfl
    rw [hreplied, ho, (HostLink.send_eq_ok hsend).1, ← add_assoc, repliesOf_singleton]
    rfl
  | resume hloop =>
    refine hkeep rfl rfl rfl (by simp [Failed, hloop]) rfl ?_
    simp [owed, hloop]
  | spawn hloop hinactive =>
    refine hkeep rfl rfl rfl (by simp [Failed, hloop]) rfl ?_
    simp only [owed, hloop, JobManager.spawn, repliesOf_nil, zero_add]
    exact pendingReplies_insert_new hinactive rfl
  | @join i J output jobs queue hloop _ _ hsettle =>
    obtain ⟨job, hlookup, rfl, rfl⟩ := JobManager.settle_join hsettle
    refine hkeep rfl rfl rfl (by simp [Failed, hloop]) rfl ?_
    change repliesOf _ + pendingReplies ((s.jobs.active.insert J _).erase J) = _
    rw [repliesOf_settlement, pendingReplies_erase_insert, ← pendingReplies_erase hlookup]
    simp only [owed, hloop]
  | remove hloop =>
    refine hkeep rfl rfl rfl (by simp [Failed, hloop]) rfl ?_
    simp [owed, hloop]
  | drain hloop =>
    refine hkeep rfl rfl rfl (by simp [Failed, hloop]) rfl ?_
    simp only [owed, hloop]
    rfl
  | takeCancellations hloop _ hperm =>
    refine hkeep rfl rfl rfl (by simp [Failed, hloop]) rfl ?_
    simp only [owed, hloop, repliesOf_acknowledgements hperm]
    exact add_comm _ _
  | clear hloop =>
    refine hkeep rfl rfl rfl (by simp [Failed, hloop]) rfl ?_
    simp [owed, hloop]
  | @acknowledge o deadline link env hloop _ _ hsend =>
    refine ⟨_, _, _, hl.move rfl ?_ le_rfl rfl (by simp [Failed, hloop])⟩
    have ho : s.owed = repliesOf [o] := by simp only [owed, hloop]
    rw [hreplied, ho, (HostLink.send_eq_ok hsend).1, repliesOf_singleton]
    exact add_zero _
  | finish hloop =>
    refine hkeep rfl rfl rfl (by simp [Failed, hloop]) rfl ?_
    simp [owed, hloop]

private theorem Step.ledger (hm : s.Matched) (hres : ∀ r, s.link.reserved = some r → r.outgoing.replyTo = none)
    (hs : Step s e s') (hl : Ledger h s taken answers lost) :
    ∃ taken' answers' lost', Ledger (h ++ [e]) s' taken' answers' lost' := by
  have hreplied := hs.replied
  have hframe : Frame s s' → e.request = none → e.enqueued.bind PluginEnvelope.reply = none →
      ∃ taken' answers' lost', Ledger (h ++ [e]) s' taken' answers' lost' := by
    intro hf he hnone
    refine ⟨_, _, _, hl.move he ?_ (by rw [hf.session]) hf.maximum ?_⟩
    · have ho : s'.owed = s.owed := by
        unfold owed
        rw [hf.loop, hf.active]
      rw [hreplied, hnone, ho]
      simp
    · unfold Failed
      rw [hf.loop]
      exact id
  cases hs with
  | loop hs => exact hs.ledger hm hl
  | task hs => exact hframe hs.frame (by cases hs <;> rfl) (by cases hs <;> rfl)
  | context hs =>
    have hf := hs.frame
    cases hs with
    | emit _ _ _ hsend =>
      refine hframe hf rfl ?_
      rw [(HostLink.send_eq_ok hsend).1]
      rfl
    | commit _ hr =>
      refine hframe hf rfl ?_
      have hnone := hres _ hr
      simp [ServeEvent.enqueued, Outgoing.reply, hnone]
    | _ => exact hframe hf rfl rfl

theorem ledger {setup : Setup} (hr : Steps Step (init setup) h s) :
    ∃ taken answers lost, Ledger h s taken answers lost := by
  refine Steps.history (I := fun h s => ∃ taken answers lost, Ledger h s taken answers lost)
    ⟨[], [], 0, ?_⟩ (fun h s e s' hr hs ih => ?_) hr
  · refine ⟨List.Sublist.refl _, fun _ => ⟨rfl, rfl⟩, by simp, by simp, .nil, ?_⟩
    rfl
  · obtain ⟨taken, answers, lost, hl⟩ := ih
    exact hs.ledger (matched hr) (reserved_replyTo hr) hl

/-! ### One reply for each request -/

/-- The cancellations that are still to be acknowledged, over all active jobs. -/
def pendingCancellations (active : Table String ActiveJob) : List PendingCancellation :=
  active.toPairs.flatMap fun entry => entry.2.cancellations

/-- A shutdown is under way, or over. -/
def Closing (s : Serve) : Prop :=
  match s.loop with
  | .draining _ _ | .sending _ (.clear _ _) | .acknowledging _ _ | .consuming _ _ | .returned (.ok _) => True
  | _ => False

private theorem Processed.closing {envelope : PluginEnvelope} {call : Option Nat} (hp : Processed s envelope s' call)
    (hloop : s.loop = .head) (hc : s'.Closing) :
    envelope.replyTo = none ∧ ∃ request, envelope.payload = some (.shutdown request) := by
  cases hp with
  | shutdown hreq => exact ⟨hreq.replyTo, _, hreq.payload⟩
  | replied => simp [Closing, hloop] at hc
  | _ => exact hc.elim

/-- A step that shuts the loop down takes the request to do so, or continues without taking an envelope. -/
theorem Step.closing (hs : Step s e s') (hc : s'.Closing) : e.ShutsDown ∨ s.Closing ∧ ¬ e.Receives := by
  have hframe : s'.loop = s.loop → s.Closing := by
    intro hloop
    unfold Closing at hc ⊢
    rwa [hloop] at hc
  cases hs with
  | task hs => exact Or.inr ⟨hframe hs.frame.loop, by cases hs <;> exact id⟩
  | context hs => exact Or.inr ⟨hframe hs.frame.loop, by cases hs <;> exact id⟩
  | loop hs =>
    cases hs with
    | @receive envelope hloop => exact Or.inl ((process_processed s envelope).closing hloop hc)
    | @send o queue next link env hloop =>
      refine Or.inr ⟨?_, id⟩
      unfold Closing at hc ⊢
      rw [hloop]
      cases next <;> exact hc
    | drain hloop => exact Or.inr ⟨hframe rfl, id⟩
    | takeCancellations hloop | clear hloop | acknowledge hloop | finish hloop =>
      exact Or.inr ⟨by simp [Closing, hloop], id⟩
    | _ => exact hc.elim

/-- The loop shuts down only for a request to do so, and takes nothing more. -/
private theorem closing {setup : Setup} (hr : Steps Step (init setup) h s) (hc : s.Closing) :
    Since ServeEvent.ShutsDown ServeEvent.Receives h := by
  refine Steps.history (I := fun h s => s.Closing → Since ServeEvent.ShutsDown ServeEvent.Receives h)
    (fun hc => hc.elim) (fun h s e s' _ hs ih hc => since_snoc.2 ?_) hr hc
  exact (hs.closing hc).imp_right fun ⟨hold, hne⟩ => ⟨ih hold, hne⟩

private theorem exists_shutdown (hs : Since ServeEvent.ShutsDown ServeEvent.Receives h) :
    ∃ envelope ∈ requests h, ∃ request, envelope.payload = some (.shutdown request) := by
  obtain ⟨h₁, e, h₂, rfl, hp, -⟩ := hs
  cases e with
  | received envelope call => exact ⟨envelope, by simp [requests, ServeEvent.request, hp.1], hp.2⟩
  | _ => exact hp.elim

private theorem Ledger.ids (hl : Ledger h s taken answers lost) :
    answers.map Reply.replyTo = taken.map (·.messageId) := by
  have h := hl.answered
  clear hl
  induction h with
  | nil => rfl
  | cons ha _ ih => rw [List.map_cons, List.map_cons, ha.replyTo, ih]

theorem Ledger.answer (hl : Ledger h s taken answers lost) {reply : Reply} (hr : reply ∈ answers) :
    ∃ request ∈ requests h, Answers s.jobs.maximumConcurrentJobs request reply := by
  have hex : ∃ request ∈ taken, Answers s.jobs.maximumConcurrentJobs request reply := by
    have h := hl.answered
    clear hl
    induction h with
    | nil => simp at hr
    | cons ha _ ih =>
      rcases List.mem_cons.1 hr with rfl | hr
      · exact ⟨_, List.mem_cons_self, ha⟩
      · obtain ⟨request, hmem, ha⟩ := ih hr
        exact ⟨request, List.mem_cons_of_mem _ hmem, ha⟩
  obtain ⟨request, hmem, ha⟩ := hex
  exact ⟨request, hl.sublist.subset hmem, ha⟩

private theorem map_replyTo_replied (s : Serve) :
    s.replied.map Reply.replyTo = (s.link.wire.filterMap (·.replyTo) : List Nat) := by
  rw [replied, Multiset.map_coe, List.map_filterMap]
  congr 2
  funext envelope
  simp [PluginEnvelope.reply, Option.map_map, Function.comp_def]

private theorem map_replyTo_pending (active : Table String ActiveJob) :
    (pendingReplies active).map Reply.replyTo = ((pendingCancellations active).map (·.replyTo) : List Nat) := by
  have hall : ∀ cancellations : List PendingCancellation,
      (cancellations.map (·.acknowledgement)).filterMap (fun o => o.reply.map Reply.replyTo) =
        cancellations.map (·.replyTo) := by
    intro cancellations
    induction cancellations with
    | nil => rfl
    | cons c rest ih =>
      rw [List.map_cons, List.map_cons, ← ih]
      rfl
  rw [pendingReplies, repliesOf, Multiset.map_coe, List.map_filterMap, JobManager.acknowledgements,
    pendingCancellations, List.map_flatMap, List.filterMap_flatMap]
  congr 2
  funext entry
  exact hall entry.2.cancellations

theorem Ledger.nodup (hl : Ledger h s taken answers lost) : (taken.map (·.messageId)).Nodup :=
  hl.increasing.imp fun h => h.ne

/-- The replies on the wire and those that are owed are for different requests. -/
theorem nodup_replyTo {setup : Setup} (hr : Steps Step (init setup) h s) :
    ((s.replied + s.owed).map Reply.replyTo).Nodup := by
  obtain ⟨taken, answers, lost, hl⟩ := ledger hr
  have hids := congrArg (Multiset.map Reply.replyTo) hl.balance
  rw [Multiset.map_coe, hl.ids, Multiset.map_add] at hids
  refine Multiset.nodup_of_le ?_ (Multiset.coe_nodup.2 hl.nodup)
  rw [← hids]
  exact Multiset.le_add_right _ _

theorem nodup_wire_replyTo {setup : Setup} (hr : Steps Step (init setup) h s) :
    (s.link.wire.filterMap (·.replyTo)).Nodup := by
  have h := nodup_replyTo hr
  rw [Multiset.map_add, map_replyTo_replied] at h
  exact Multiset.coe_nodup.1 (Multiset.nodup_of_le (Multiset.le_add_right _ _) h)

/-- A reply that is on the wire, or owed, answers a request. -/
theorem answers_of_replied {setup : Setup} (hr : Steps Step (init setup) h s) {reply : Reply}
    (hreply : reply ∈ s.replied + s.owed) :
    ∃ request ∈ requests h, Answers setup.maximumConcurrentJobs request reply := by
  obtain ⟨taken, answers, lost, hl⟩ := ledger hr
  rw [← maximum_eq hr]
  refine hl.answer (Multiset.mem_coe.1 ?_)
  rw [← hl.balance]
  exact Multiset.mem_add.2 (Or.inl hreply)

/-- A loop that has returned without an error has answered every request. -/
theorem requests_of_returned {setup : Setup} (hr : Steps Step (init setup) h s) {deadline : Timestamp}
    (hloop : s.loop = .returned (.ok deadline)) :
    ((requests h).map (·.messageId)).Nodup ∧
      ((requests h).map (·.messageId)).Perm (s.link.wire.filterMap (·.replyTo)) := by
  obtain ⟨taken, answers, lost, hl⟩ := ledger hr
  obtain ⟨rfl, rfl⟩ := hl.complete (by simp [Failed, hloop])
  have hids := congrArg (Multiset.map Reply.replyTo) hl.balance
  have ho : s.owed = 0 := by simp only [owed, hloop]
  rw [Multiset.map_coe, hl.ids, Multiset.map_add, Multiset.map_add, map_replyTo_replied, ho,
    Multiset.map_zero, add_zero, add_zero] at hids
  exact ⟨hl.nodup, (Multiset.coe_eq_coe.1 hids).symm⟩

/-- The replies on the wire are for different requests, and each answers a request of the host under its trace.  At a
loop head the requests without a reply are the pending cancellations, each once; when the loop has returned without an
error, which it does only for a shutdown, every request has its reply. -/
theorem one_reply {setup : Setup} (hr : Steps Step (init setup) h s) :
    (s.link.wire.filterMap (·.replyTo)).Nodup ∧
    (∀ envelope ∈ s.link.wire, ∀ reply, envelope.reply = some reply →
      ∃ request ∈ requests h, Answers setup.maximumConcurrentJobs request reply) ∧
    (s.loop = .head → ((requests h).map (·.messageId)).Nodup ∧
      ((requests h).map (·.messageId)).Perm
        (s.link.wire.filterMap (·.replyTo) ++ (pendingCancellations s.jobs.active).map (·.replyTo)) ∧
      ∀ c ∈ pendingCancellations s.jobs.active, ∃ request ∈ requests h,
        Answers setup.maximumConcurrentJobs request
          ⟨c.replyTo, some c.trace, some (.cancelJobAcknowledged ⟨some c.jobId⟩)⟩) ∧
    ∀ deadline, s.loop = .returned (.ok deadline) → ((requests h).map (·.messageId)).Nodup ∧
      ((requests h).map (·.messageId)).Perm (s.link.wire.filterMap (·.replyTo)) ∧
      ∃ envelope ∈ requests h, ∃ request, envelope.payload = some (.shutdown request) := by
  obtain ⟨taken, answers, lost, hl⟩ := ledger hr
  have hmax := maximum_eq hr
  have hbalance := hl.balance
  have hids := congrArg (Multiset.map Reply.replyTo) hbalance
  rw [Multiset.map_coe, hl.ids, Multiset.map_add, Multiset.map_add, map_replyTo_replied] at hids
  have hmem : ∀ reply, reply ∈ s.replied + s.owed → reply ∈ answers := by
    intro reply hreply
    rw [← Multiset.mem_coe, ← hbalance]
    exact Multiset.mem_add.2 (Or.inl hreply)
  have hanswer : ∀ reply, reply ∈ s.replied + s.owed →
      ∃ request ∈ requests h, Answers setup.maximumConcurrentJobs request reply := fun reply hreply =>
    hmax ▸ hl.answer (hmem reply hreply)
  refine ⟨nodup_wire_replyTo hr, fun envelope henv reply hreply => ?_, fun hloop => ?_, fun deadline hloop => ?_⟩
  · refine hanswer reply (Multiset.mem_add.2 (Or.inl ?_))
    exact Multiset.mem_coe.2 (List.mem_filterMap.2 ⟨envelope, henv, hreply⟩)
  · obtain ⟨rfl, rfl⟩ := hl.complete (by simp [Failed, hloop])
    have ho : s.owed = pendingReplies s.jobs.active := by simp only [owed, hloop]
    rw [ho, map_replyTo_pending, Multiset.map_zero, add_zero, Multiset.coe_add] at hids
    refine ⟨hl.nodup, (Multiset.coe_eq_coe.1 hids).symm, fun c hc => hanswer _ (Multiset.mem_add.2 (Or.inr ?_))⟩
    rw [ho, pendingReplies, repliesOf, Multiset.mem_coe, List.mem_filterMap]
    refine ⟨c.acknowledgement, ?_, rfl⟩
    obtain ⟨entry, hentry, hc⟩ := List.mem_flatMap.1 hc
    exact List.mem_flatMap.2 ⟨entry, hentry, List.mem_map_of_mem hc⟩
  · obtain ⟨rfl, rfl⟩ := hl.complete (by simp [Failed, hloop])
    have ho : s.owed = 0 := by simp only [owed, hloop]
    rw [ho, Multiset.map_zero, add_zero, add_zero] at hids
    exact ⟨hl.nodup, (Multiset.coe_eq_coe.1 hids).symm, exists_shutdown (closing hr (by simp [Closing, hloop]))⟩

theorem one_reply_sampleRun : ∃ s, Steps Step (init sampleSetup) sampleRun s ∧
    (s.link.wire.filterMap (·.replyTo)).Nodup := by
  obtain ⟨s, hr⟩ := sampleRun_steps
  exact ⟨s, hr, (one_reply hr).1⟩

end Serve

end PluginSdk
