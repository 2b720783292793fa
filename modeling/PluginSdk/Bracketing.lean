import PluginSdk.Session
import PluginSdk.Acknowledgement

/-!
# Envelopes between acceptance and settlement

As long as the task of an action has not been joined, its job has been accepted and nothing that ends the job has
been enqueued (`Serve.bracketing`), so whatever is enqueued through its context by then is in its bracket.  The
checks of the context keep no clone to that: a poll loads the cancellation value and enqueues afterwards, and the
loop may join and settle the job in between (`Session.late_log`).
-/

namespace PluginSdk

open Lts

/-- The terminal message of the job: its update, an acknowledgement of its cancellation, or that of the shutdown. -/
def ServeEvent.Ends (J : String) : ServeEvent → Prop
  | .sent envelope =>
    match envelope.payload with
    | some (.jobUpdate update) => update.jobId = some ⟨J⟩
    | some (.cancelJobAcknowledged acknowledged) => acknowledged.jobId = some ⟨J⟩
    | some .shutdownAcknowledged => True
    | _ => False
  | _ => False

/-- Every envelope enqueued through a context lies after the acceptance of its job and before the terminal
messages. -/
def Bracketed (h : List ServeEvent) : Prop :=
  ∀ h₁ actor call envelope h₂, h = h₁ ++ ServeEvent.emitted actor call envelope :: h₂ →
    ∃ a acc b context w, h₁ = a ++ ServeEvent.sent acc :: (b ++ .spawned actor.inst context :: w) ∧
      (ServeEvent.sent acc).Accepts context.jobId ∧
      ∀ e ∈ b ++ ServeEvent.spawned actor.inst context :: w, ¬ e.Ends context.jobId

namespace Serve

variable {s s' : Serve} {e : ServeEvent} {J : String} {i : Nat} {h : List ServeEvent} {setup : Setup}

/-- When a job is ended its task has been joined. -/
private theorem Step.ends_joined (hm : s.Matched) (hq : s.Queued) (hs : Step s e s') (he : e.Ends J) :
    (i, J) ∉ taskKeys s.jobs.tasks := by
  have hagree := hm.agree
  unfold Matches at hagree
  cases e with
  | sent envelope =>
    unfold ServeEvent.Ends at he
    rcases sent_inv hq hs with ⟨o, queue, next, hloop, -, -, hp, -, -, ho⟩ | ⟨o, deadline, count, hloop, -, -, hp⟩
    · simp only [hp] at he
      rw [hloop] at hagree
      intro hmem
      cases next with
      | head =>
        rcases ho with ⟨error, ho⟩ | ⟨heartbeat, ho⟩ | ⟨jobId, ho, hl⟩
        · simp [ho] at he
        · simp [ho] at he
        · -- only the cancellation of an inactive job is acknowledged here
          obtain rfl : jobId = J := by simpa [ho] using he
          obtain ⟨job, hl', -⟩ := mem_activeKeys.1 (hm.subperm.subset hmem)
          rw [hl] at hl'
          cases hl'
      | spawn job =>
        have ho : o.payload = _ := ho
        simp [ho] at he
      | remove jobId =>
        obtain rfl : jobId = J := by
          rcases ho with ho | ⟨update, ho, hid⟩
          · simpa [ho] using he
          · simpa [ho, hid] using he
        obtain ⟨inst, hperm⟩ := hagree
        have hnd := (hperm.map Prod.snd).nodup_iff.2 (nodup_map_snd_activeKeys _)
        rw [List.map_cons, List.nodup_cons] at hnd
        exact hnd.1 (List.mem_map.2 ⟨_, hmem, rfl⟩)
      | clear o' deadline =>
        rw [show s.jobs.tasks = [] from hagree] at hmem
        cases hmem
    · rw [hloop] at hagree
      rw [hagree.1]
      simp [taskKeys]
  | _ => exact he.elim

/-- What has been enqueued for the jobs whose tasks have not been joined. -/
structure Bracketing (h : List ServeEvent) (s : Serve) : Prop where
  accepted : ∀ job, s.loop = .sending [] (.spawn job) → ∃ a acc b, h = a ++ .sent acc :: b ∧
    (ServeEvent.sent acc).Accepts job.jobId ∧ ∀ e ∈ b, ¬ e.Ends job.jobId
  tasks : ∀ i J, (i, J) ∈ taskKeys s.jobs.tasks → ∃ a acc b context w,
    h = a ++ .sent acc :: (b ++ .spawned i context :: w) ∧ context.jobId = J ∧ (ServeEvent.sent acc).Accepts J ∧
    ∀ e ∈ b ++ .spawned i context :: w, ¬ e.Ends J

/-- The tasks that were there before the step. -/
private theorem Bracketing.keep (hb : Bracketing h s) (hm : s.Matched) (hq : s.Queued) (hs : Step s e s')
    (hmem : (i, J) ∈ taskKeys s.jobs.tasks) : ∃ a acc b context w,
      h ++ [e] = a ++ .sent acc :: (b ++ .spawned i context :: w) ∧ context.jobId = J ∧
      (ServeEvent.sent acc).Accepts J ∧ ∀ x ∈ b ++ .spawned i context :: w, ¬ x.Ends J := by
  obtain ⟨a, acc, b, context, w, rfl, hj, hacc, hw⟩ := hb.tasks i J hmem
  refine ⟨a, acc, b, context, w ++ [e], by simp, hj, hacc, ?_⟩
  rw [← List.cons_append, ← List.append_assoc]
  exact forall_mem_snoc hw fun he => hs.ends_joined hm hq he hmem

private theorem Step.bracketing (hm : s.Matched) (hq : s.Queued) (hs : Step s e s') (hb : Bracketing h s) :
    Bracketing (h ++ [e]) s' := by
  have hframe : Frame s s' → (∀ J, ¬ e.Ends J) → Bracketing (h ++ [e]) s' := by
    intro hf he
    refine ⟨fun job hloop => ?_, fun i J hmem => hb.keep hm hq hs (hf.keys ▸ hmem)⟩
    obtain ⟨a, acc, b, rfl, hacc, hw⟩ := hb.accepted job (hf.loop ▸ hloop)
    exact ⟨a, acc, b ++ [e], by simp, hacc, forall_mem_snoc hw (he _)⟩
  have hs' := hs
  cases hs with
  | task hs => exact hframe hs.frame fun J he => by cases hs <;> exact he
  | context hs => exact hframe hs.frame fun J he => by cases hs <;> exact he
  | loop hs =>
    -- only a send can leave the loop with a job to spawn, and only a spawn adds a task
    have hkeep : (∀ job, s'.loop ≠ .sending [] (.spawn job)) → s'.spawned = s.spawned → Bracketing (h ++ [e]) s' := by
      intro hloop hspawned
      refine ⟨fun job hl => absurd hl (hloop job), fun i J hmem => ?_⟩
      rcases hs.tasks.2 _ hmem with hold | hnew
      · exact hb.keep hm hq hs' hold
      · obtain ⟨phase, ht⟩ := mem_taskKeys.1 hmem
        have hlt : i < s'.spawned := (hs'.matched hm).inst_lt ht
        have heq : i = s.spawned := hnew
        omega
    cases hs with
    | @receive envelope hloop =>
      have hp := process_processed s envelope
      exact hkeep ((hp.lookup_isSome (J := "")).2 (by simp [hloop])) hp.tasks.2
    | @send o queue next link env hloop _ _ hsend =>
      refine ⟨fun job hl => ?_, fun i J hmem => hb.keep hm hq hs' hmem⟩
      cases hl
      have ho : o.payload = .jobAccepted ⟨some ⟨job.jobId⟩⟩ := hq.queue hloop List.mem_cons_self
      obtain ⟨rfl, -⟩ := HostLink.send_eq_ok hsend
      exact ⟨h, _, [], rfl, congrArg some ho, by simp⟩
    | @spawn job hloop =>
      refine ⟨by simp, fun i J hmem => ?_⟩
      simp only [JobManager.spawn, taskKeys, List.map_append, List.mem_append, List.map_cons, List.map_nil,
        List.mem_singleton, Prod.mk.injEq] at hmem
      rcases hmem with hmem | ⟨rfl, rfl⟩
      · exact hb.keep hm hq hs' hmem
      · obtain ⟨a, acc, b, rfl, hacc, hw⟩ := hb.accepted job hloop
        exact ⟨a, acc, b, s.context job, [], by simp, rfl, hacc, forall_mem_snoc hw id⟩
    | drain hloop => exact hkeep (by simp [hloop]) rfl
    | _ => exact hkeep (by simp [fail]) rfl

private theorem bracketing (hr : Steps Step (init setup) h s) : Bracketing h s := by
  refine Steps.history (I := Bracketing) ⟨by simp [init], by simp [init, taskKeys]⟩ (fun h s e s' hr hs hb => ?_) hr
  exact hs.bracketing (matched hr) (queued hr) hb

end Serve

namespace Session

variable {platform : Platform} {x x' : Session} {e : ServeEvent} {h : List ServeEvent} {setup : Setup}

/-- What is enqueued through a context is enqueued before the loop joins the task of its action. -/
def InTime (x : Session) : ServeEvent → Prop
  | .emitted actor _ _ => ∃ jobId, (actor.inst, jobId) ∈ taskKeys x.serve.jobs.tasks
  | _ => True

/-- What an action's own future enqueues is always in time. -/
theorem Step.inTime_of_future {actor : Actor} {call : Nat} {envelope : PluginEnvelope}
    (hs : Step platform x (.emitted actor call envelope) x') (hf : actor.future = some actor.inst) :
    x.InTime (.emitted actor call envelope) := by
  have hmem : ∃ jobId, (actor.inst, jobId) ∈ taskKeys x.serve.jobs.tasks := by
    cases hs.serve with
    | loop hs => cases hs
    | task hs => cases hs
    | context hs => exact hs.mem hf
  exact hmem

/-- In every run whose enqueues through contexts are in time, they are all bracketed. -/
theorem bracketed (hr : Steps (fun x e x' => Step platform x e x' ∧ x.InTime e) (init setup) h x) : Bracketed h := by
  rintro h₁ actor call envelope h₂ rfl
  obtain ⟨y, y', hy, ⟨-, jobId, hmem⟩, -⟩ := hr.split
  have hserve := run_serve (hy.mono fun _ _ _ hs => hs.1)
  obtain ⟨a, acc, b, context, w, rfl, rfl, hacc, hw⟩ := (Serve.bracketing hserve).tasks _ _ hmem
  exact ⟨a, acc, b, context, w, rfl, hacc, hw⟩

/-! ### A log record after the settlement -/

/-- A call that has checked a log record, and whose poll has found the cancellation value active. -/
def logging (actor : Actor) (context : ActionContext) (record : LogRecord) : ContextCall where
  actor := actor
  context := context
  program := .op (.send context.trace (.log record)) fun r => .pure ((ContextProgram.selected r).map fun _ => .logged)
  polled := true
  ticket := none

/-- How a log record comes to that point. -/
private theorem logging_steps {actor : Actor} {context : ActionContext} {call : Nat} {level : LogLevel}
    {target message : String} {fields : List (String × ConfigValue)} {timestamp : Timestamp}
    (hlevel : level ≠ .unspecified) (htarget : target ≠ "") (hfields : ActionContext.validateFields fields = .ok ())
    (htimestamp : validTimestamp timestamp) (hact : x.serve.CanAct actor)
    (hcontext : x.contexts actor.inst = some context) (hcall : x.calls call = none)
    (hactive : x.serve.cells context.cancellation = .active) :
    Steps (Step platform) x (List.replicate 4 (.internal actor call))
      (x.setCall call (some (logging actor context ⟨some timestamp, level, target, message, fields⟩))) := by
  have hbegin : Step platform x (.internal actor call) _ :=
    @Step.begin platform x actor call context (.log level target message fields) hact hcontext hcall
  rw [Operation.log_program platform context hlevel htarget hfields] at hbegin
  refine .cons hbegin (.cons (.of_call (.ensureActive_of_active hact rfl hactive)) ?_)
  rw [if_pos rfl]
  refine .cons (.of_call (@ContextCall.Step.now call _ _ timestamp _ hact rfl)) ?_
  rw [if_pos htimestamp]
  exact .single (.of_call (.poll hact rfl rfl rfl hactive))

/-- The record is enqueued whatever has happened since. -/
theorem logging_emit {actor : Actor} {context : ActionContext} {record : LogRecord} {call : Nat} {link : HostLink}
    {envelope : PluginEnvelope} (hcall : x.calls call = some (logging actor context record))
    (hact : x.serve.CanAct actor) (hr : x.serve.link.reserved = none) (hroom : x.serve.link.HasRoom)
    (hsend : x.serve.link.send ⟨none, context.trace, .log record⟩ = (link, .ok envelope)) :
    Step platform x (.emitted actor call envelope)
      { x.setCall call (some ((logging actor context record).resume (.pure (.ok .logged)))) with
        serve := { x.serve with link } } :=
  .call hcall (@ContextCall.Step.emit call x.serve (logging actor context record) context.trace
    (.log record) _ link envelope hact rfl rfl hr hroom hsend)

open Serve (sampleTrace sampleJobId sampleSetup sampleStart sampleAccepted)

/-- A task that the action of the sample session has spawned with a clone of its context. -/
def sampleClone : Actor := ⟨0, none⟩

def sampleRecord : LogRecord := ⟨some ⟨0, 0⟩, .info, "echo", "working", []⟩

/-- The clone writes a log record; its poll has found the cancellation value active. -/
def samplePolled : List ServeEvent :=
  [ServeEvent.received sampleStart none, .sent sampleAccepted, .spawned 0 sampleContext,
    .task 0 sampleJobId .started] ++ List.replicate 4 (ServeEvent.internal sampleClone 0)

/-- Between the poll and the enqueue the action ends, and the loop joins and settles its job. -/
def sampleSettled : List ServeEvent :=
  samplePolled ++ [ServeEvent.task 0 sampleJobId (.ended (.ok (.ok ⟨none, []⟩))), .task 0 sampleJobId .finished,
    .task 0 sampleJobId .completed, .joined 0 sampleJobId,
    .sent (sampleEnvelope 4 (.jobUpdate (terminalUpdate sampleJobId (.ok ⟨none, []⟩)))), .settled sampleJobId]

def sampleLate : List ServeEvent := sampleSettled ++ [.emitted sampleClone 0 (sampleEnvelope 5 (.log sampleRecord))]

theorem samplePolled_steps : Steps (Step platform) (init sampleSetup) samplePolled
    (sampleRunning.setCall 0 (some (logging sampleClone sampleContext sampleRecord))) :=
  sampleRunning_steps.trans
    (logging_steps (by decide) (by decide) rfl (by decide) ⟨Nat.one_pos, by simp [sampleClone]⟩ rfl rfl rfl)

theorem sampleLate_steps : ∃ u, Steps (Step platform) (init sampleSetup) sampleLate u := by
  have hrest : ∃ u, Steps (Step platform)
    (sampleRunning.setCall 0 (some (logging sampleClone sampleContext sampleRecord)))
      (sampleLate.drop samplePolled.length) u := by
    refine Steps.exists_cons (.task (.stop (List.mem_singleton.2 rfl)) (by simp [ServeEvent.artifacts]) ?_) ?_
    · intro inst _ call c hc
      obtain ⟨-, rfl⟩ : call = 0 ∧ logging sampleClone sampleContext sampleRecord = c := by
        simpa [setCall, sampleRunning, Function.update_apply] using hc
      simp [logging, sampleClone]
    refine Steps.exists_cons (.task (.finish (List.mem_singleton.2 rfl)) (by simp [ServeEvent.artifacts])
      (by simp [ServeEvent.drops])) ?_
    refine Steps.exists_cons (.task (.complete (List.mem_singleton.2 rfl)) (by simp [ServeEvent.artifacts])
      (by simp [ServeEvent.drops])) ?_
    refine Steps.exists_cons (.loop (.join rfl (by decide) (List.mem_singleton.2 rfl) rfl)) ?_
    refine Steps.exists_cons (.loop (.send rfl rfl (by decide) rfl)) ?_
    refine Steps.exists_cons (.loop (.remove rfl rfl)) ?_
    exact ⟨_, .single (logging_emit rfl ⟨Nat.one_pos, by simp [sampleClone]⟩ rfl (by decide) rfl)⟩
  obtain ⟨u, hu⟩ := hrest
  exact ⟨u, samplePolled_steps.trans hu⟩

/-- The log record comes after the update that settles the job. -/
theorem late_log : (∃ u, Steps (Step samplePlatform) (init sampleSetup) sampleLate u) ∧ ¬ Bracketed sampleLate := by
  refine ⟨sampleLate_steps, fun hb => ?_⟩
  obtain ⟨a, acc, b, context, w, heq, -, hw⟩ := hb sampleSettled sampleClone 0 _ [] rfl
  have hmem : ServeEvent.spawned 0 context ∈ sampleSettled := by
    rw [heq]
    simp [sampleClone]
  obtain rfl : context = sampleContext := by simpa [sampleSettled, samplePolled] using hmem
  have hsince : Since (fun e => ∃ context, e = .spawned 0 context) (·.Ends sampleJobId) sampleSettled := by
    refine ⟨a ++ .sent acc :: b, _, w, ?_, ⟨sampleContext, rfl⟩, fun e he => hw e (by simp [he])⟩
    rw [heq]
    simp [sampleClone]
  -- the job is settled, and its update is the event before that
  rw [show sampleSettled = (sampleSettled.take 12 ++ [.sent _]) ++ [.settled sampleJobId] from rfl, since_snoc_of_not,
    since_snoc] at hsince
  · rcases hsince with ⟨_, he⟩ | ⟨-, he⟩
    · cases he
    · exact he rfl
  · simp
  · exact id

theorem bracketed_sampleLog : Bracketed
    (samplePolled ++ [.emitted sampleClone 0 (sampleEnvelope 4 (.log sampleRecord))]) := by
  have hpolled : Steps (fun x e x' => Step samplePlatform x e x' ∧ x.InTime e) (init sampleSetup) samplePolled _ :=
    samplePolled_steps.mono_of_mem (P := fun e => ∀ actor call envelope, e ≠ .emitted actor call envelope)
      (fun x e x' hne hs => ⟨hs, by cases e <;> first | trivial | exact absurd rfl (hne _ _ _)⟩)
      (by simp [samplePolled])
  have hs := @logging_emit samplePlatform
    (sampleRunning.setCall 0 (some (logging sampleClone sampleContext sampleRecord))) sampleClone
    sampleContext sampleRecord 0 _ _ rfl ⟨Nat.one_pos, by simp [sampleClone]⟩ rfl (by decide) rfl
  exact bracketed (hpolled.trans (.single ⟨hs, sampleJobId, List.mem_singleton.2 rfl⟩))

end Session

end PluginSdk
