import PluginSdk.Admission
import PluginSdk.Containment

/-!
# Why a session fails

A session that has failed has a cause in its history: the host has closed the stream or has sent what the protocol
does not allow it, the output stream is gone, the message IDs are exhausted, or the supervisor task of an action has
died (`Session.blame`).  So no order of its steps makes a session fail on a host that conforms.
-/

namespace PluginSdk

open Lts
open Requests (idsExhausted)

variable {setup : Setup} {h : List ServeEvent} {e : ServeEvent}

def notConsumed : SdkError := .runtime "wait for plugin output stream consumption" "channel closed"

/-- The event explains the error, after the history `h`. -/
inductive Blames (setup : Setup) (h : List ServeEvent) : SdkError → ServeEvent → Prop
  | hostClosed {err : SdkError} : Blames setup h err (.hostClosed err)
  | envelope {err : SdkError} {envelope : PluginEnvelope} : ¬ Conforms setup h (Owes h) envelope →
      Blames setup h err (.received envelope none)
  /-- Every step takes one ID at most. -/
  | exhausted : 2 ^ 64 ≤ h.length + 4 → Blames setup h idsExhausted (.sendFailed idsExhausted)
  | outputClosed : .closed ∈ h → Blames setup h outputClosed (.sendFailed outputClosed)
  | notConsumed : .closed ∈ h → Blames setup h notConsumed (.returned (.error notConsumed))
  | supervisor {inst : Nat} {jobId jobId' source : String} : .task inst jobId' (.ended (.error source)) ∈ h →
      Blames setup h (.action ("action supervisor task ended without a result: " ++ source)) (.joinFailed inst jobId)

/-! ### The output stream and the IDs -/

namespace HostLink

variable {l l' : HostLink}

private theorem Step.closed_or {e : Event} (hs : Step l e l') (hclosed : l'.closed = true) :
    l.closed = true ∨ e = .closed := by
  cases hs with
  | send _ _ hsend => exact Or.inl (by rwa [(send_eq_ok hsend).2] at hclosed)
  | sendFailed _ hsend => exact Or.inl (by rwa [send_eq_error hsend] at hclosed)
  | reserve _ hreserve => exact Or.inl (by rwa [(reserve_eq_ok hreserve).2] at hclosed)
  | reserveFailed _ hreserve => exact Or.inl (by rwa [reserve_eq_error hreserve] at hclosed)
  | burn => exact Or.inl (by rwa [burn_eq] at hclosed)
  | route hroute => exact Or.inl (by rwa [route_eq hroute] at hclosed)
  | close => exact Or.inr rfl
  | _ => exact Or.inl hclosed

private theorem closed_mem {h : List Event} (hr : Steps Step l h l') (hopen : l.closed = false)
    (hclosed : l'.closed = true) : Event.closed ∈ h := by
  refine Steps.history (I := fun h l => l.closed = true → Event.closed ∈ h) (fun hc => ?_)
    (fun h l e l' _ hs ih hc => ?_) hr hclosed
  · rw [hopen] at hc
    cases hc
  · rcases hs.closed_or hc with hc | rfl
    · exact List.mem_append_left _ (ih hc)
    · simp

private theorem le_succ_of_allocate {sender sender' : SenderState} {id : Nat}
    (ha : sender.allocate = .ok (id, sender')) : sender'.nextMessageId ≤ sender.nextMessageId + 1 :=
  (SenderState.allocate_eq_ok.1 ha).2.1.le

private theorem send_le_succ (l : HostLink) (o : Outgoing) :
    (l.send o).1.sender.nextMessageId ≤ l.sender.nextMessageId + 1 := by
  unfold send
  split
  · exact Nat.le_succ _
  · rename_i ha
    split <;> exact le_succ_of_allocate ha

private theorem reserve_le_succ (l : HostLink) (call : Nat) (o : Outgoing) :
    (l.reserve call o).1.sender.nextMessageId ≤ l.sender.nextMessageId + 1 := by
  unfold reserve
  split
  · exact Nat.le_succ _
  · rename_i ha
    split <;> exact le_succ_of_allocate ha

private theorem burn_le_succ (l : HostLink) : l.burn.sender.nextMessageId ≤ l.sender.nextMessageId + 1 := by
  unfold burn
  split
  · exact Nat.le_succ _
  · rename_i ha
    exact le_succ_of_allocate ha

/-- Why a send has failed. -/
private theorem send_error_cases {o : Outgoing} {err : SdkError} (hsend : l.send o = (l', .error err)) :
    2 ^ 64 ≤ l.sender.nextMessageId + 1 ∧ err = idsExhausted ∨ l.closed = true ∧ err = outputClosed := by
  unfold send at hsend
  split at hsend
  · rename_i ha
    obtain ⟨hlt, rfl⟩ := SenderState.allocate_eq_error.1 ha
    cases hsend
    exact Or.inl ⟨hlt, rfl⟩
  · split at hsend
    · rename_i hclosed
      cases hsend
      exact Or.inr ⟨hclosed, rfl⟩
    · cases hsend

end HostLink

namespace Serve

variable {s s' : Serve}

private theorem Step.next_le (hs : Step s e s') : s'.link.sender.nextMessageId ≤ s.link.sender.nextMessageId + 1 := by
  have hsame : s'.link = s.link → s'.link.sender.nextMessageId ≤ s.link.sender.nextMessageId + 1 := fun hlink => by
    rw [hlink]
    exact Nat.le_succ _
  have hfst : ∀ {α : Type} {r : HostLink × α} {a : α}, r.1.sender.nextMessageId ≤ s.link.sender.nextMessageId + 1 →
      r = (s'.link, a) → s'.link.sender.nextMessageId ≤ s.link.sender.nextMessageId + 1 := by
    rintro α r a hle rfl
    exact hle
  cases hs with
  | task hs => exact hsame hs.link
  | context hs =>
    cases hs with
    | emit _ _ _ hsend => exact hfst (HostLink.send_le_succ ..) hsend
    | emitFailed _ _ hsend => exact hfst (HostLink.send_le_succ ..) hsend
    | reserve _ _ hreserve => exact hfst (HostLink.reserve_le_succ ..) hreserve
    | reserveFailed _ _ hreserve => exact hfst (HostLink.reserve_le_succ ..) hreserve
    | burn => exact HostLink.burn_le_succ _
    | _ => exact Nat.le_succ _
  | loop hs =>
    cases hs with
    | receive =>
      obtain ⟨pending, hlink⟩ := (process_processed s _).link
      rw [hlink]
      exact Nat.le_succ _
    | send _ _ _ hsend => exact hfst (HostLink.send_le_succ ..) hsend
    | sendFailed _ _ hsend => exact hfst (HostLink.send_le_succ ..) hsend
    | acknowledge _ _ _ hsend => exact hfst (HostLink.send_le_succ ..) hsend
    | acknowledgeFailed _ _ hsend => exact hfst (HostLink.send_le_succ ..) hsend
    | _ => exact Nat.le_succ _

private theorem next_le (hr : Steps Step (init setup) h s) : s.link.sender.nextMessageId ≤ h.length + 3 := by
  refine Steps.history (I := fun h s => s.link.sender.nextMessageId ≤ h.length + 3) ?_ (fun h s e s' _ hs ih => ?_) hr
  · rw [init_link]
    exact le_rfl
  · have hle := hs.next_le
    rw [List.length_append, List.length_singleton]
    omega

private theorem Step.loop_eq (hs : Step s e s') (he : e.ofLoop = false) : s'.loop = s.loop := by
  cases hs with
  | task hs => exact hs.frame.loop
  | context hs => exact hs.frame.loop
  | loop hs =>
    rw [hs.ofLoop] at he
    cases he

/-- An envelope on which the loop fails is handed to no call. -/
private theorem Processed.undelivered {envelope : PluginEnvelope} {call : Option Nat}
    (hp : Processed s envelope s' call) (hlive : s.Live) (hend : ¬ s'.Live) : call = none := by
  cases hp with
  | replied => exact absurd hlive hend
  | _ => rfl

/-! ### The supervisor tasks -/

/-- A task that has died before the loop has aborted it has died by itself. -/
private theorem died (hr : Steps Step (init setup) h s) (hs : ¬ s.Ending) {t : Task}
    (ht : t ∈ s.jobs.tasks) {source : String} (hresult : t.phase.result = some (.error source)) :
    ∃ jobId, .task t.inst jobId (.ended (.error source)) ∈ h := by
  refine Steps.history (I := fun h s => ¬ s.Ending → ∀ t ∈ s.jobs.tasks, ∀ source,
    t.phase.result = some (.error source) →
      ∃ jobId, .task t.inst jobId (.ended (.error source)) ∈ h) ?_
      (fun h s e s' _ hs ih hend t ht source hresult => ?_) hr
    hs t ht source hresult
  · intro _ t ht
    cases ht
  · have hend' : ¬ s.Ending := fun h => hend (hs.ending h)
    rcases hs.result ht hresult with ⟨u, hu, hinst, hresult'⟩ | ⟨jobId, rfl⟩ | ⟨haborting, -⟩
    · obtain ⟨jobId, hmem⟩ := ih hend' u hu source hresult'
      exact ⟨jobId, List.mem_append_left _ (hinst ▸ hmem)⟩
    · exact ⟨jobId, by simp⟩
    · exact absurd haborting.ending hend'

end Serve

namespace Session

variable {platform : Platform} {x x' : Session} {err : SdkError}

/-- The output stream of a session is closed by its own step only. -/
private theorem closed_mem (hr : Steps (Step platform) (init setup) h x) (hclosed : x.serve.link.closed = true) :
    .closed ∈ h := by
  obtain ⟨l, hl, hshown⟩ := refines_link.run trivial hr
  have hopen : (init setup).serve.link.closed = false := congrArg HostLink.closed (Serve.init_link setup)
  have hmem : Shown.closed ∈ l.filterMap HostLink.Event.shown :=
    List.mem_filterMap.2 ⟨_, HostLink.closed_mem hl hopen hclosed, rfl⟩
  rw [hshown] at hmem
  obtain ⟨e, he, hshow⟩ := List.mem_filterMap.1 hmem
  have heq : e = .closed := by
    cases e with
    | closed => rfl
    | received envelope call =>
      cases call with
      | none => cases hshow
      | some call =>
        obtain ⟨_, -, hdelivered⟩ := Option.map_eq_some_iff.1 hshow
        cases hdelivered
    | _ => cases hshow
  exact heq ▸ he

private theorem conforms_mono {owed owed' : Nat → TraceContext → Prop} {envelope : PluginEnvelope}
    (hle : ∀ id trace, owed id trace → owed' id trace) (hc : Conforms setup h owed envelope) :
    Conforms setup h owed' envelope := by
  obtain ⟨hlast, hlater, hsession, hinstance, trace, htrace, hwithin, hobeys⟩ := hc
  refine ⟨hlast, hlater, hsession, hinstance, trace, htrace, hwithin, ?_⟩
  unfold Obeys at hobeys ⊢
  split at hobeys
  · exact ⟨hobeys.1, hle _ _ hobeys.2⟩
  all_goals exact hobeys

/-- The step with which a session fails is explained. -/
private theorem Step.blames (hr : Steps (Step platform) (init setup) h x) (hs : Step platform x e x')
    (hlive : x.serve.Live) (hfailed : x'.serve.loop = .returned (.error err)) : Blames setup h err e := by
  have hserve := run_serve hr
  have hend : ¬ x'.serve.Live := by simp [Serve.Live, hfailed]
  have hframe : ¬ e.ofLoop = false := fun he => hend ((Serve.live_congr (hs.serve.loop_eq he)).2 hlive)
  -- a send fails because there is no ID left or because the stream is gone
  have hsend : ∀ {o : Outgoing} {link : HostLink}, x.serve.link.send o = (link, .error err) →
      Blames setup h err (.sendFailed err) := by
    intro o link hsend
    rcases HostLink.send_error_cases hsend with ⟨hlt, rfl⟩ | ⟨hclosed, rfl⟩
    · have hnext := Serve.next_le hserve
      exact .exhausted (by omega)
    · exact .outputClosed (closed_mem hr hclosed)
  cases hs with
  | loop hs =>
    cases hs with
    | @receive envelope hloop =>
      have hnone : (x.serve.process envelope).2 = none := (Serve.process_processed _ _).undelivered hlive hend
      rw [hnone]
      refine .envelope fun hc => hend ((conforms_iff hr hloop).2 (conforms_mono (fun id trace => Or.inl) hc))
    | hostClosed =>
      cases hfailed
      exact .hostClosed
    | sendFailed _ _ hfail =>
      cases hfailed
      exact hsend hfail
    | acknowledgeFailed _ _ hfail =>
      cases hfailed
      exact hsend hfail
    | joinFailed hloop _ ht =>
      cases hfailed
      obtain ⟨jobId, hmem⟩ := Serve.died hserve (Serve.not_ending_of_head hloop) ht rfl
      exact .supervisor hmem
    | finishFailed _ _ hclosed =>
      cases hfailed
      exact .notConsumed (closed_mem hr hclosed)
    | drain hloop => cases hloop.symm.trans hfailed
    | _ => cases hfailed
  | task hs => exact absurd hs.ofLoop hframe
  | stream hs => exact absurd hs.ofLoop hframe
  | begin | returned | drop | dropReserved => exact absurd rfl hframe
  | call _ hs => exact absurd hs.serve.ofLoop hframe

/-- A session that has failed has a cause in its history, after which the loop has done nothing. -/
theorem blame (hr : Steps (Step platform) (init setup) h x) (hfailed : x.serve.loop = .returned (.error err)) :
    ∃ h₁ cause h₂, h = h₁ ++ cause :: h₂ ∧ Blames setup h₁ err cause ∧ ∀ y ∈ h₂, y.ofLoop = false := by
  refine Steps.history (I := fun h x => x.serve.loop = .returned (.error err) →
      ∃ h₁ cause h₂, h = h₁ ++ cause :: h₂ ∧ Blames setup h₁ err cause ∧ ∀ y ∈ h₂, y.ofLoop = false) ?_
    (fun h x e x' hr hs ih hfailed => ?_) hr hfailed
  · intro hloop
    cases hloop
  · by_cases hlive : x.serve.Live
    · exact ⟨h, e, [], rfl, hs.blames hr hlive hfailed, by simp⟩
    · have hofLoop := hs.serve.ofLoop_of_not_live hlive
      obtain ⟨h₁, cause, h₂, rfl, hcause, hrest⟩ := ih ((hs.serve.loop_eq hofLoop).symm.trans hfailed)
      exact ⟨h₁, cause, h₂ ++ [e], by simp, hcause, forall_mem_snoc hrest hofLoop⟩

open Serve (sampleRequest sampleStart sampleAccepted sampleSetup sampleJobId)

def staleIds : SdkError := .protocol "host message IDs must be nonzero and strictly increasing"

/-- The host of the sample session uses an ID again. -/
private def sampleStale : List ServeEvent :=
  [.received sampleStart none, .sent sampleAccepted, .spawned 0 sampleContext, .task 0 sampleJobId .started,
    .received (sampleRequest 3 (.heartbeat ⟨7⟩)) none]

theorem blame_sampleStale : ∃ h₁ cause h₂, sampleStale = h₁ ++ cause :: h₂ ∧ Blames sampleSetup h₁ staleIds cause ∧
    ∀ y ∈ h₂, y.ofLoop = false := by
  have hs : Step samplePlatform sampleRunning (.received (sampleRequest 3 (.heartbeat ⟨7⟩)) _) _ :=
    .loop (.receive rfl)
  exact blame (sampleRunning_steps.snoc hs) rfl

end Session

end PluginSdk
