import PluginSdk.Admission

/-!
# The sender lock and the calls

A call lives no longer than the future that makes it, and the sender lock is held by a live call or by nobody, so it
never leaks (`Session.lock_held`).  While the session goes on, the waiter of each call that waits for a reply is in
the routing table, and the reply that names its request goes to that call (`Session.reply_delivered`).
-/

namespace PluginSdk

open Lts

namespace Serve

variable {s s' : Serve} {e : ServeEvent} {inst : Nat} {jobId : String}

/-! ### Running actions -/

private theorem Matched.task_unique (hm : s.Matched) {t u : Task} (ht : t ∈ s.jobs.tasks) (hu : u ∈ s.jobs.tasks)
    (hinst : t.inst = u.inst) : t = u := by
  have hnd : (s.jobs.tasks.map (·.inst)).Nodup := by
    have hnodup := hm.nodup_tasks
    unfold taskKeys at hnodup
    rwa [List.map_map] at hnodup
  exact List.inj_on_of_nodup_map hnd ht hu hinst

/-- A task keeps its phase while another one changes its own. -/
private theorem mem_setPhase_of_ne {inst' : Nat} {phase phase' : TaskPhase} (ht : ⟨inst, jobId, phase⟩ ∈ s.jobs.tasks)
    (hne : inst ≠ inst') : ⟨inst, jobId, phase⟩ ∈ (s.setPhase inst' phase').jobs.tasks :=
  List.mem_map.2 ⟨_, ht, if_neg hne⟩

private theorem mem_join_of_ne {t : Task} (ht : ⟨inst, jobId, .running⟩ ∈ s.jobs.tasks) (hne : inst ≠ t.inst) :
    ⟨inst, jobId, .running⟩ ∈ (s.jobs.join t).tasks :=
  List.mem_filter.2 ⟨ht, by simpa using hne⟩

private theorem Processed.mem_tasks {envelope : PluginEnvelope} {call : Option Nat}
    (hp : Processed s envelope s' call) {t : Task} (ht : t ∈ s.jobs.tasks) : t ∈ s'.jobs.tasks := by
  rwa [hp.tasks.1]

/-- An action runs until its future is gone. -/
private theorem Step.running (hm : s.Matched) (hs : Step s e s') (ht : ⟨inst, jobId, .running⟩ ∈ s.jobs.tasks)
    (he : e.drops ≠ some inst) : ⟨inst, jobId, .running⟩ ∈ s'.jobs.tasks := by
  -- a task in another phase is another task
  have hne : ∀ {inst' : Nat} {jobId' : String} {phase : TaskPhase}, phase ≠ .running →
      ⟨inst', jobId', phase⟩ ∈ s.jobs.tasks → inst ≠ inst' := by
    rintro inst' jobId' phase hphase hmem rfl
    have heq := hm.task_unique hmem ht rfl
    cases heq
    exact hphase rfl
  cases hs with
  | context hs =>
    rw [hs.link]
    exact ht
  | task hs =>
    cases hs with
    | start hmem => exact mem_setPhase_of_ne ht (hne (by simp) hmem)
    | act => exact ht
    | stop => exact mem_setPhase_of_ne ht fun heq => he (by rw [heq]; rfl)
    | abort => exact mem_setPhase_of_ne ht fun heq => he (by rw [heq]; rfl)
    | abortSpawned _ hmem => exact mem_setPhase_of_ne ht (hne (by simp) hmem)
    | finish hmem => exact mem_setPhase_of_ne ht (hne (by simp) hmem)
    | complete hmem => exact mem_setPhase_of_ne ht (hne (by simp) hmem)
  | loop hs =>
    cases hs with
    | receive => exact (process_processed s _).mem_tasks ht
    | spawn => exact List.mem_append_left _ ht
    | join _ _ hmem hsettle =>
      obtain ⟨job, -, rfl, -⟩ := JobManager.settle_join hsettle
      exact mem_join_of_ne ht (hne (by simp) hmem)
    | joinFailed _ _ hmem => exact mem_join_of_ne ht (hne (by simp) hmem)
    | drain _ hmem => exact mem_join_of_ne ht (hne (by simp) hmem)
    | _ => exact ht

private theorem Step.spawned_le (hs : Step s e s') : s.spawned ≤ s'.spawned := by
  cases hs with
  | context hs => exact hs.frame.spawned.ge
  | task hs => exact hs.frame.spawned.ge
  | loop hs =>
    cases hs with
    | receive => exact (process_processed s _).tasks.2.ge
    | spawn => exact Nat.le_succ _
    | _ => exact le_rfl

private theorem CanAct.step {actor : Actor} (ha : s.CanAct actor) (hm : s.Matched) (hs : Step s e s')
    (he : ∀ inst, e.drops = some inst → actor.future ≠ some inst) : s'.CanAct actor := by
  refine ⟨ha.1.trans_le hs.spawned_le, fun inst hinst => ?_⟩
  obtain ⟨jobId, ht⟩ := ha.2 inst hinst
  exact ⟨jobId, hs.running hm ht fun hdrops => he inst hdrops hinst⟩

/-- The loop itself reserves nothing. -/
private theorem LoopStep.reserved_eq (hs : LoopStep s e s') : s'.link.reserved = s.link.reserved := by
  cases hs with
  | receive =>
    obtain ⟨pending, hlink⟩ := (process_processed s _).link
    rw [hlink]
  | send _ _ _ hsend => rw [(HostLink.send_eq_ok hsend).2]
  | sendFailed _ _ hsend =>
    simp only [fail]
    rw [HostLink.send_eq_error hsend]
  | acknowledge _ _ _ hsend => rw [(HostLink.send_eq_ok hsend).2]
  | acknowledgeFailed _ _ hsend =>
    simp only [fail]
    rw [HostLink.send_eq_error hsend]
  | _ => rfl

end Serve

/-- The call holds the sender lock for the request of the reservation. -/
def ContextCall.HoldsFor (c : ContextCall) (r : Reservation) : Prop :=
  ∃ trace payload k reply, c.program = .op (.request trace payload) k ∧ c.ticket = some ⟨r.id, false, reply⟩ ∧
    r.outgoing = ⟨none, trace, payload⟩

namespace ContextCall

variable {c c' : ContextCall} {r : Reservation}

theorem HoldsFor.holds (h : c.HoldsFor r) : c.Holds := by
  obtain ⟨trace, payload, k, reply, -, ht, -⟩ := h
  exact ⟨_, ht, rfl⟩

private theorem not_holds_resume (c : ContextCall)
    (program : Program ContextOp ContextOp.Reply (Except SdkError Returned)) : ¬ (c.resume program).Holds := by
  rintro ⟨t, ht, -⟩
  cases ht

/-- A reply in its oneshot leaves a call with the lock. -/
def withReply (c : ContextCall) (t : Ticket) (answer : Payload) : ContextCall :=
  { c with ticket := some { t with reply := some answer } }

private theorem HoldsFor.withReply {t : Ticket} {answer : Payload} (h : c.HoldsFor r) (ht : c.ticket = some t) :
    (c.withReply t answer).HoldsFor r := by
  obtain ⟨trace, payload, k, reply, hp, ht', ho⟩ := h
  cases ht.symm.trans ht'
  exact ⟨trace, payload, k, _, hp, rfl, ho⟩

private theorem holds_of_withReply {t : Ticket} {answer : Payload} (ht : c.ticket = some t)
    (h : (c.withReply t answer).Holds) : c.Holds := by
  obtain ⟨t', ht', hsent⟩ := h
  cases ht'
  exact ⟨t, ht, hsent⟩

end ContextCall

namespace Session

variable {platform : Platform} {x x' : Session} {e : ServeEvent} {h : List ServeEvent} {setup : Setup}

/-! ### The calls and their futures -/

/-- The loop does nothing to a call but to put a reply into its oneshot. -/
private theorem observe_calls_of {call : Nat} {c : ContextCall} (hc : x.calls call = some c) :
    (x.observe e).calls call = some c ∨
      ∃ t answer, c.ticket = some t ∧ (x.observe e).calls call = some (c.withReply t answer) := by
  unfold observe
  split
  · exact Or.inl hc
  · rename_i envelope call'
    split
    · rename_i payload _ _
      unfold deliver
      split
      · exact Or.inl hc
      · rename_i c' hc'
        split
        · exact Or.inl hc
        · rename_i t ht
          split
          · by_cases hcall : call = call'
            · subst hcall
              cases hc.symm.trans hc'
              exact Or.inr ⟨t, payload, ht, Function.update_self ..⟩
            · exact Or.inl ((Function.update_of_ne hcall ..).trans hc)
          · exact Or.inl hc
    · exact Or.inl hc
  · exact Or.inl hc

/-- A call is dropped with the future that makes it. -/
private theorem Step.not_drops (hs : Step platform x e x') {call : Nat} {c : ContextCall}
    (hc : x.calls call = some c) : ∀ inst, e.drops = some inst → c.actor.future ≠ some inst := by
  intro inst he
  cases hs with
  | task _ _ hdrops => exact hdrops inst he call c hc
  | loop hs => cases hs <;> cases he
  | stream hs => cases hs <;> cases he
  | call _ hs => cases hs <;> cases he
  | begin | returned | drop | dropReserved => cases he

/-- A call has been there before, or has just been begun. -/
private theorem Step.call_inv (hs : Step platform x e x') {call : Nat} {c' : ContextCall}
    (hc' : x'.calls call = some c') :
    (∃ c, x.calls call = some c ∧ c'.actor = c.actor) ∨ x'.serve = x.serve ∧ x.serve.CanAct c'.actor := by
  cases hs with
  | loop =>
    rcases observe_calls hc' with hold | ⟨c, t, reply, answer, -, hold, -, -, -, rfl⟩
    · exact Or.inl ⟨c', hold, rfl⟩
    · exact Or.inl ⟨c, hold, rfl⟩
  | task => exact Or.inl ⟨c', hc', rfl⟩
  | stream => exact Or.inl ⟨c', hc', rfl⟩
  | begin ha =>
    rcases setCall_calls hc' with ⟨-, heq⟩ | hold
    · cases heq
      exact Or.inr ⟨rfl, ha⟩
    · exact Or.inl ⟨c', hold, rfl⟩
  | call hc hs =>
    rcases setCall_calls hc' with ⟨rfl, heq⟩ | hold
    · cases heq
      exact Or.inl ⟨_, hc, hs.context_eq.1⟩
    · exact Or.inl ⟨c', hold, rfl⟩
  | returned | drop | dropReserved =>
    rcases setCall_calls hc' with ⟨-, heq⟩ | hold
    · cases heq
    · exact Or.inl ⟨c', hold, rfl⟩

/-- A call that is alive can act: its context exists, and the future that makes it has not ended. -/
theorem acts (hr : Steps (Step platform) (init setup) h x) :
    ∀ call c, x.calls call = some c → x.serve.CanAct c.actor := by
  refine Steps.history (I := fun _ x => ∀ call c, x.calls call = some c → x.serve.CanAct c.actor) (fun _ _ hc => ?_)
    (fun h x e x' hr hs ih call c' hc' => ?_) hr
  · cases hc
  · have hm := Serve.matched (run_serve hr)
    rcases hs.call_inv hc' with ⟨c, hc, hactor⟩ | ⟨heq, ha⟩
    · rw [hactor]
      exact (ih call c hc).step hm hs.serve (hs.not_drops hc)
    · rwa [heq]

/-! ### Who holds the lock -/

/-- The sender lock is held by a live call, for the request that is reserved. -/
structure Locked (x : Session) : Prop where
  holder : ∀ r, x.serve.link.reserved = some r → ∃ c, x.calls r.call = some c ∧ c.HoldsFor r
  holds : ∀ call c, x.calls call = some c → c.Holds → ∃ r, x.serve.link.reserved = some r ∧ r.call = call

/-- Only one call is touched. -/
private theorem Locked.of_call (hx : x.Locked) {call : Nat} (hother : ∀ n, n ≠ call → x'.calls n = x.calls n)
    (hreserved : ∀ r, r.call ≠ call → (x'.serve.link.reserved = some r ↔ x.serve.link.reserved = some r))
    (hholder : ∀ r, x'.serve.link.reserved = some r → r.call = call → ∃ c, x'.calls call = some c ∧ c.HoldsFor r)
    (hholds : ∀ c, x'.calls call = some c → c.Holds → ∃ r, x'.serve.link.reserved = some r ∧ r.call = call) :
    x'.Locked := by
  constructor
  · intro r hr
    by_cases hcall : r.call = call
    · obtain ⟨c, hc, hfor⟩ := hholder r hr hcall
      exact ⟨c, hcall ▸ hc, hfor⟩
    · rw [hother _ hcall]
      exact hx.holder r ((hreserved r hcall).1 hr)
  · intro n c hc hholdsc
    by_cases hn : n = call
    · subst hn
      exact hholds c hc hholdsc
    · rw [hother n hn] at hc
      obtain ⟨r, hr, rfl⟩ := hx.holds n c hc hholdsc
      exact ⟨r, (hreserved r hn).2 hr, rfl⟩

/-- The calls that hold the lock are unchanged up to their replies. -/
private theorem Locked.observe (hx : x.Locked) {serve : Serve}
    (hreserved : serve.link.reserved = x.serve.link.reserved) : Locked { x.observe e with serve } := by
  constructor
  · intro r hr
    obtain ⟨c, hc, hfor⟩ := hx.holder r (hreserved ▸ hr)
    rcases observe_calls_of (e := e) hc with hold | ⟨t, answer, ht, hnew⟩
    · exact ⟨c, hold, hfor⟩
    · exact ⟨_, hnew, hfor.withReply ht⟩
  · intro call c' hc' hholds
    rw [hreserved]
    rcases observe_calls hc' with hold | ⟨c, t, reply, answer, -, hold, ht, -, -, rfl⟩
    · exact hx.holds call c' hold hholds
    · exact hx.holds call c hold (ContextCall.holds_of_withReply ht hholds)

/-- A step of a call that touches no reservation and no ticket that holds the lock. -/
private theorem Locked.keep_call (hx : x.Locked) {call : Nat} {c : Option ContextCall} {serve : Serve}
    {stored : List StoredArtifact} (hreserved : serve.link.reserved = x.serve.link.reserved)
    (hfor : ∀ r c₀, x.serve.link.reserved = some r → r.call = call → x.calls call = some c₀ → c₀.HoldsFor r →
      ∃ c₁, c = some c₁ ∧ c₁.HoldsFor r)
    (hholds : ∀ c₁, c = some c₁ → c₁.Holds → ∃ c₀, x.calls call = some c₀ ∧ c₀.Holds) :
    Locked { x.setCall call c with serve, stored } := by
  have hself : ({ x.setCall call c with serve, stored } : Session).calls call = c := Function.update_self ..
  refine hx.of_call (fun n hn => Function.update_of_ne hn ..) (fun r _ => by rw [hreserved]) (fun r hr hcall => ?_)
    fun c₁ hc₁ hholds₁ => ?_
  · rw [hreserved] at hr
    obtain ⟨c₀, hc₀, hfor₀⟩ := hx.holder r hr
    rw [hself]
    exact hfor r c₀ hr hcall (hcall ▸ hc₀) hfor₀
  · rw [hself] at hc₁
    obtain ⟨c₀, hc₀, hholds₀⟩ := hholds c₁ hc₁ hholds₁
    rw [hreserved]
    exact hx.holds call c₀ hc₀ hholds₀

/-- The lock is let go of. -/
private theorem Locked.free (hx : x.Locked) {r : Reservation} (hr : x.serve.link.reserved = some r)
    {c : Option ContextCall} {serve : Serve} {stored : List StoredArtifact} (hreserved : serve.link.reserved = none)
    (hholds : ∀ c₁, c = some c₁ → ¬ c₁.Holds) : Locked { x.setCall r.call c with serve, stored } := by
  have hself : ({ x.setCall r.call c with serve, stored } : Session).calls r.call = c := Function.update_self ..
  refine hx.of_call (fun n hn => Function.update_of_ne hn ..) (fun r' hne => ?_) (fun r' hr' _ => ?_)
    fun c₁ hc₁ hholds₁ => ?_
  · refine iff_of_false (by simp [hreserved]) fun hr' => hne ?_
    cases hr.symm.trans hr'
    rfl
  · simp [hreserved] at hr'
  · rw [hself] at hc₁
    exact absurd hholds₁ (hholds c₁ hc₁)

/-- A step of a call keeps the lock with whoever holds it. -/
private theorem Locked.call_step (hx : x.Locked) {call : Nat} {c c' : ContextCall} {serve : Serve}
    (hc : x.calls call = some c) (hs : ContextCall.Step call x.serve c e serve c') :
    Locked { x.setCall call (some c') with serve } := by
  -- an operation that is no request under way holds no lock
  have hfor : ∀ {o : ContextOp} {k : o.Reply → _}, c.program = .op o k →
    (∀ trace payload, o ≠ .request trace payload) →
      ∀ r c₀, x.calls call = some c₀ → ¬ c₀.HoldsFor r := by
    rintro o k hp hne r c₀ hc₀ ⟨trace, payload, k', reply, hp', -⟩
    cases hc.symm.trans hc₀
    cases hp.symm.trans hp'
    exact hne trace payload rfl
  have hnone : ¬ c.Holds → ∀ r c₀, x.calls call = some c₀ → ¬ c₀.HoldsFor r := by
    intro hnot r c₀ hc₀ hfor
    cases hc.symm.trans hc₀
    exact hnot hfor.holds
  have hresume : ∀ {program} {link : HostLink}, link.reserved = x.serve.link.reserved →
      (∀ r c₀, x.calls call = some c₀ → ¬ c₀.HoldsFor r) →
      Locked { x.setCall call (some (c.resume program)) with serve := { x.serve with link } } := by
    intro program link hreserved hnot
    refine hx.keep_call hreserved (fun r c₀ _ _ hc₀ hfor => absurd hfor (hnot r c₀ hc₀)) fun c₁ hc₁ hholds => ?_
    cases hc₁
    exact absurd hholds (ContextCall.not_holds_resume _ _)
  cases hs with
  | ensureActive _ hp => exact hresume rfl (hfor hp (by simp))
  | now _ hp => exact hresume rfl (hfor hp (by simp))
  | poll | suspend =>
    refine hx.keep_call rfl (fun r c₀ _ _ hc₀ hfor => ?_) fun c₁ hc₁ hholds => ⟨c, hc, ?_⟩
    · cases hc.symm.trans hc₀
      obtain ⟨trace, payload, k, reply, hp, ht, ho⟩ := hfor
      exact ⟨_, rfl, trace, payload, k, reply, hp, ht, ho⟩
    · cases hc₁
      exact hholds
  | cancelled _ _ _ _ _ hnot => exact hresume rfl (hnone hnot)
  | cancelledReserved _ _ _ _ _ _ hr hcall =>
    subst hcall
    refine hx.free hr rfl fun c₁ hc₁ => ?_
    cases hc₁
    exact ContextCall.not_holds_resume _ _
  | io _ hp _ hio => exact hresume rfl (hfor hp (by rintro trace payload rfl; exact hio))
  | emit _ hp _ _ _ hsend =>
    exact hresume (by rw [(HostLink.send_eq_ok hsend).2]) (hfor hp (by simp))
  | emitFailed _ hp _ _ hsend =>
    exact hresume (by rw [HostLink.send_eq_error hsend]) (hfor hp (by simp))
  | @reserve trace payload k link id _ hp _ _ hfree hres =>
    obtain ⟨-, rfl⟩ := HostLink.reserve_eq_ok hres
    refine hx.of_call (fun n hn => Function.update_of_ne hn ..) (fun r hne => ?_) (fun r hr _ => ?_)
      fun c₁ hc₁ _ => ?_
    · refine iff_of_false (fun hr => hne ?_) (by simp [hfree])
      cases hr
      rfl
    · cases hr
      exact ⟨_, Function.update_self .., trace, payload, k, none, hp, rfl, rfl⟩
    · exact ⟨_, rfl, rfl⟩
  | reserveFailed _ _ _ hticket _ hres =>
    refine hresume (by rw [HostLink.reserve_eq_error hres]) (hnone ?_)
    rintro ⟨t, ht, -⟩
    cases hticket.symm.trans ht
  | commit _ _ _ _ hr =>
    refine hx.free hr rfl fun c₁ hc₁ => ?_
    cases hc₁
    rintro ⟨t, ht, hsent⟩
    cases ht
    cases hsent
  | commitFailed _ _ _ _ hr =>
    refine hx.free hr rfl fun c₁ hc₁ => ?_
    cases hc₁
    exact ContextCall.not_holds_resume _ _
  | answer _ _ _ hticket =>
    refine hresume rfl (hnone ?_)
    rintro ⟨t, ht, hsent⟩
    cases hticket.symm.trans ht
    cases hsent
  | disconnect _ _ _ hticket =>
    refine hresume rfl (hnone ?_)
    rintro ⟨t, ht, hsent⟩
    cases hticket.symm.trans ht
    cases hsent

private theorem Step.locked (hs : Step platform x e x') (hx : x.Locked) : x'.Locked := by
  cases hs with
  | loop hs => exact hx.observe hs.reserved_eq
  | task hs =>
    refine ⟨fun r hr => hx.holder r ?_, fun call c hc hholds => ?_⟩
    · rwa [← hs.link]
    · rw [hs.link]
      exact hx.holds call c hc hholds
  | stream hs hstream =>
    have hreserved : ∀ {link : HostLink}, link.reserved = x.serve.link.reserved →
        Locked { x with serve := { x.serve with link } } := fun hlink =>
      ⟨fun r hr => hx.holder r (hlink ▸ hr), fun call c hc hholds => hlink ▸ hx.holds call c hc hholds⟩
    cases hs with
    | burn => exact hreserved (by rw [HostLink.burn_eq])
    | consume | close => exact hreserved rfl
    | _ => exact hstream.elim
  | begin _ _ hnone =>
    refine hx.keep_call rfl (fun r c₀ _ _ hc₀ _ => ?_) fun c₁ hc₁ hholds => ?_
    · rw [hnone] at hc₀
      cases hc₀
    · cases hc₁
      obtain ⟨t, ht, -⟩ := hholds
      cases ht
  | call hc hs => exact hx.call_step hc hs
  | returned hc _ hp =>
    refine hx.keep_call rfl (fun r c₀ _ _ hc₀ hfor => ?_) fun c₁ hc₁ => ?_
    · cases hc.symm.trans hc₀
      obtain ⟨trace, payload, k, reply, hp', -⟩ := hfor
      cases hp.symm.trans hp'
    · cases hc₁
  | drop hc _ hnot =>
    refine hx.keep_call rfl (fun r c₀ _ _ hc₀ hfor => ?_) fun c₁ hc₁ => ?_
    · cases hc.symm.trans hc₀
      exact absurd hfor.holds hnot
    · cases hc₁
  | dropReserved _ _ _ hr =>
    refine hx.free hr rfl fun c₁ hc₁ => ?_
    cases hc₁

theorem locked (hr : Steps (Step platform) (init setup) h x) : x.Locked := by
  refine hr.invariant (fun _ _ _ hs hx => hs.locked hx) ⟨fun r hr => ?_, fun call c hc => ?_⟩
  · cases hr
  · cases hc

/-- No call outlives the future that makes it, and the sender lock is held for a request by exactly the call that
makes it: if an ID is reserved, its call is alive, can act and holds the lock for it, and no other call holds the
lock. -/
theorem lock_held (hr : Steps (Step platform) (init setup) h x) :
    (∀ call c, x.calls call = some c → x.serve.CanAct c.actor) ∧
      (∀ r, x.serve.link.reserved = some r → ∃ c, x.calls r.call = some c ∧ x.serve.CanAct c.actor ∧ c.HoldsFor r) ∧
      ∀ call c, x.calls call = some c → c.Holds →
        ∃ r, x.serve.link.reserved = some r ∧ r.call = call ∧ c.HoldsFor r := by
  have hlocked := locked hr
  refine ⟨acts hr, fun r hreserved => ?_, fun call c hc hholds => ?_⟩
  · obtain ⟨c, hc, hfor⟩ := hlocked.holder r hreserved
    exact ⟨c, hc, acts hr _ c hc, hfor⟩
  · obtain ⟨r, hreserved, rfl⟩ := hlocked.holds call c hc hholds
    obtain ⟨c', hc', hfor⟩ := hlocked.holder r hreserved
    cases hc.symm.trans hc'
    exact ⟨r, hreserved, rfl, hfor⟩

end Session

/-! ### Waiters -/

/-- The waiter of the call is in the routing table, under the ticket of its request. -/
def ContextCall.Waits (c : ContextCall) (l : HostLink) (call : Nat) (t : Ticket) : Prop :=
  ∃ trace payload k, c.program = .op (.request trace payload) k ∧ l.pending.lookup t.id = some ⟨trace, call⟩

section Others

variable {l : HostLink} {id n : Nat} {trace : TraceContext}

private theorem HostLink.Sound.pending_lt (hl : l.Sound) {w : PendingResponse} (hw : l.pending.lookup id = some w) :
    id < l.sender.nextMessageId := by
  rcases hl.pending id w hw with ⟨r, hr, rfl, -⟩ | ⟨o, ho, -⟩
  · exact (hl.reserved r hr).1
  · exact hl.lt _ ho

/-- Giving up a reservation leaves the waiters of the other calls alone. -/
private theorem HostLink.Sound.lookup_release (hl : l.Sound) {r : Reservation} (hr : l.reserved = some r)
    (hw : l.pending.lookup id = some ⟨trace, n⟩) (hn : n ≠ r.call) :
    (l.release r).pending.lookup id = some ⟨trace, n⟩ := by
  have hid : id ≠ r.id := by
    rintro rfl
    rcases hl.pending r.id _ hw with ⟨r', hr', -, hcall, -⟩ | ⟨o, ho, -⟩
    · cases hr.symm.trans hr'
      exact hn hcall.symm
    · exact lt_irrefl _ ((hl.reserved r hr).2 _ ho)
  exact (AList.lookup_erase_ne hid).trans hw

/-- A step of a call leaves the waiters of the other calls alone. -/
private theorem ContextCall.Step.lookup_other {call : Nat} {s s' : Serve} {c c' : ContextCall} {e : ServeEvent}
    (hs : ContextCall.Step call s c e s' c') (hl : s.link.Sound) (hw : s.link.pending.lookup id = some ⟨trace, n⟩)
    (hn : n ≠ call) : s'.link.pending.lookup id = some ⟨trace, n⟩ := by
  cases hs with
  | cancelledReserved _ _ _ _ _ _ hr hcall => exact hl.lookup_release hr hw (hcall ▸ hn)
  | commitFailed _ _ _ _ hr => exact hl.lookup_release hr hw hn
  | emit _ _ _ _ _ hsend =>
    rw [(HostLink.send_eq_ok hsend).2]
    exact hw
  | emitFailed _ _ _ _ hsend =>
    rw [HostLink.send_eq_error hsend]
    exact hw
  | reserve _ _ _ _ _ hreserve =>
    obtain ⟨rfl, rfl⟩ := HostLink.reserve_eq_ok hreserve
    exact (AList.lookup_insert_ne (hl.pending_lt hw).ne).trans hw
  | reserveFailed _ _ _ _ _ hreserve =>
    rw [HostLink.reserve_eq_error hreserve]
    exact hw
  | _ => exact hw

end Others

namespace Session

variable {platform : Platform} {x x' : Session} {e : ServeEvent} {h : List ServeEvent} {setup : Setup}

/-- Each call that waits for a reply has its waiter in the routing table. -/
def Registered (x : Session) : Prop :=
  ∀ call c t, x.calls call = some c → c.ticket = some t → t.reply = none → c.Waits x.serve.link call t

private theorem Registered.call_step (hx : x.Registered) (hl : x.serve.link.Sound) {call : Nat}
    {c c' : ContextCall} {serve : Serve} (hc : x.calls call = some c)
    (hs : ContextCall.Step call x.serve c e serve c') : Registered { x.setCall call (some c') with serve } := by
  intro n d t hd ht hreply
  by_cases hn : n = call
  · subst hn
    have hself : ({ x.setCall n (some c') with serve } : Session).calls n = some c' := Function.update_self ..
    cases hself.symm.trans hd
    cases hs with
    | poll | suspend => exact hx n c t hc ht hreply
    | reserve _ hp _ _ _ hreserve =>
      obtain ⟨rfl, rfl⟩ := HostLink.reserve_eq_ok hreserve
      cases ht
      exact ⟨_, _, _, hp, AList.lookup_insert _⟩
    | commit _ hp _ hticket =>
      cases ht
      obtain ⟨trace, payload, k, hp', hw⟩ := hx n c _ hc hticket hreply
      exact ⟨trace, payload, k, hp', hw⟩
    | _ => cases ht
  · have hother : ({ x.setCall call (some c') with serve } : Session).calls n = x.calls n :=
      Function.update_of_ne hn ..
    obtain ⟨trace, payload, k, hp, hw⟩ := hx n d t (hother ▸ hd) ht hreply
    exact ⟨trace, payload, k, hp, hs.lookup_other hl hw hn⟩

/-- A reply goes into the oneshot of the call whose request it names. -/
private theorem observe_reply {call : Nat} {c : ContextCall} {t : Ticket} {envelope : PluginEnvelope}
    {answer : Payload} (hc : x.calls call = some c) (ht : c.ticket = some t) (hreply : envelope.replyTo = some t.id)
    (hpayload : envelope.payload = some answer) :
    (x.observe (.received envelope (some call))).calls call = some (c.withReply t answer) := by
  simp only [observe, hreply, hpayload, deliver, hc, ht, if_true]
  exact Function.update_self ..

private theorem observe_calls_of_not_received (he : e.inbound = none) : (x.observe e).calls = x.calls := by
  cases e with
  | received => cases he
  | _ => rfl

/-- An envelope that is no reply touches no call, and a reply only the call that it is handed to. -/
private theorem registered_of_processed (hx : x.Registered) {envelope : PluginEnvelope}
    {call : Option Nat} {serve : Serve} (hp : Serve.Processed x.serve envelope serve call) (hlive : serve.Live) :
    Registered { x.observe (.received envelope call) with serve } := by
  have hsame : ∀ {serve' : Serve}, serve'.link = x.serve.link →
      Registered { x.observe (.received envelope none) with serve := serve' } := by
    intro serve' hlink n d t hd ht hreply
    change d.Waits serve'.link n t
    rw [hlink]
    exact hx n d t hd ht hreply
  cases hp with
  | failed => exact absurd hlive (Serve.not_live_fail _ _)
  | @replied session trace replyTo call payload link _ hreplyTo hpayload hroute =>
    have hwaiter : x.serve.link.pending.lookup replyTo = some ⟨trace, call⟩ :=
      HostLink.route_snd_eq_ok.1 (by rw [hroute])
    have hlink := HostLink.route_eq hroute
    subst hlink
    intro n d t hd ht hreply
    rcases observe_calls hd with hold | ⟨c, t', reply, answer, -, -, -, -, -, rfl⟩
    · obtain ⟨trace', payload', k, hp, hw⟩ := hx n d t hold ht hreply
      have hid : t.id ≠ replyTo := by
        rintro rfl
        -- the waiter of the reply is that of `n`, which has got the reply then
        cases hwaiter.symm.trans hw
        have hnew := Option.some.inj ((observe_reply hold ht hreplyTo hpayload).symm.trans hd)
        have hticket := (congrArg ContextCall.ticket hnew).trans ht
        rw [← Option.some.inj hticket] at hreply
        cases hreply
      exact ⟨trace', payload', k, hp, (AList.lookup_erase_ne hid).trans hw⟩
    · cases ht
      cases hreply
  | accepted | refused | cancelled | acknowledged | heartbeat | shutdown => exact hsame rfl

private theorem Step.registered (hs : Step platform x e x') (hl : x.serve.link.Sound) (hlive : x'.serve.Live)
    (hx : x.Registered) : x'.Registered := by
  have hkeep : ∀ {x' : Session}, x'.serve.link.pending = x.serve.link.pending →
      (∀ n d, x'.calls n = some d → x.calls n = some d ∨ d.ticket = none) → x'.Registered := by
    intro x' hpending hcalls n d t hd ht hreply
    rcases hcalls n d hd with hold | hnone
    · obtain ⟨trace, payload, k, hp, hw⟩ := hx n d t hold ht hreply
      exact ⟨trace, payload, k, hp, hpending ▸ hw⟩
    · cases hnone.symm.trans ht
  have hremoved : ∀ {call n : Nat} {d : ContextCall}, (x.setCall call none).calls n = some d →
    x.calls n = some d := by
    intro call n d hd
    rcases setCall_calls hd with ⟨-, heq⟩ | hold
    · cases heq
    · exact hold
  cases hs with
  | loop hs =>
    have hpending : ∀ {serve' : Serve}, e.inbound = none → serve'.link.pending = x.serve.link.pending →
        Registered { x.observe e with serve := serve' } := by
      intro serve' he hpending
      refine hkeep hpending fun n d hd => Or.inl ?_
      rwa [← observe_calls_of_not_received he]
    cases hs with
    | receive => exact registered_of_processed hx (Serve.process_processed _ _) hlive
    | send _ _ _ hsend => exact hpending rfl (by rw [(HostLink.send_eq_ok hsend).2])
    | acknowledge _ _ _ hsend => exact hpending rfl (by rw [(HostLink.send_eq_ok hsend).2])
    | sendFailed | acknowledgeFailed => exact absurd hlive (Serve.not_live_fail _ _)
    | _ => exact hpending rfl rfl
  | task hs => exact hkeep (by rw [hs.link]) fun n d hd => Or.inl hd
  | stream hs hstream =>
    cases hs with
    | burn => exact hkeep (by rw [HostLink.burn_eq]) fun n d hd => Or.inl hd
    | consume | close => exact hkeep rfl fun n d hd => Or.inl hd
    | _ => exact hstream.elim
  | begin =>
    refine hkeep rfl fun n d hd => ?_
    rcases setCall_calls hd with ⟨-, heq⟩ | hold
    · cases heq
      exact Or.inr rfl
    · exact Or.inl hold
  | call hc hs => exact hx.call_step hl hc hs
  | returned => exact hkeep rfl fun n d hd => Or.inl (hremoved hd)
  | drop => exact hkeep rfl fun n d hd => Or.inl (hremoved hd)
  | @dropReserved _ r _ _ _ hr =>
    intro n d t hd ht hreply
    have hne : n ≠ r.call := by
      rintro rfl
      have hnone : (x.setCall r.call none).calls r.call = none := Function.update_self ..
      cases hnone.symm.trans hd
    obtain ⟨trace, payload, k, hp, hw⟩ := hx n d t (hremoved hd) ht hreply
    exact ⟨trace, payload, k, hp, hl.lookup_release hr hw hne⟩

private theorem registered (hr : Steps (Step platform) (init setup) h x) (hlive : x.serve.Live) : x.Registered := by
  refine Steps.history (I := fun _ x => x.serve.Live → x.Registered) (fun _ _ _ _ hc => ?_)
    (fun h x e x' hr hs ih hlive => ?_) hr hlive
  · cases hc
  · exact hs.registered (link_sound hr) hlive (ih (hs.serve.live hlive))

private theorem Step.received_calls {envelope : PluginEnvelope} {call : Option Nat}
    (hs : Step platform x (.received envelope call) x') : x'.calls = (x.observe (.received envelope call)).calls := by
  cases hs with
  | loop => rfl
  | task hs => cases hs
  | stream hs => cases hs
  | call _ hs => cases hs

/-- While the session goes on, each call that waits for a reply is in the routing table, so its wait does not fail,
and a reply to its request that does not fail the session is put into its oneshot and into no other. -/
theorem reply_delivered (hr : Steps (Step platform) (init setup) h x) (hlive : x.serve.Live)
    {call : Nat} {c : ContextCall} {t : Ticket} (hc : x.calls call = some c) (ht : c.ticket = some t)
    (hreply : t.reply = none) :
    c.Waits x.serve.link call t ∧
      ∀ envelope call' x', Step platform x (.received envelope call') x' → envelope.replyTo = some t.id →
        x'.serve.Live → call' = some call ∧ ∃ answer, envelope.payload = some answer ∧
          x'.calls call = some (c.withReply t answer) ∧ ∀ n, n ≠ call → x'.calls n = x.calls n := by
  have hwaits := registered hr hlive call c t hc ht hreply
  refine ⟨hwaits, fun envelope call' x' hs hreplyTo hlive' => ?_⟩
  have hcalls := hs.received_calls
  have hp := hs.serve.received_inv.2
  generalize x'.serve = serve at hp hlive'
  cases hp with
  | failed => exact absurd hlive' (Serve.not_live_fail _ _)
  | @replied session trace replyTo call' answer link _ hreplyTo' hpayload hroute =>
    obtain rfl : replyTo = t.id := Option.some.inj (hreplyTo'.symm.trans hreplyTo)
    have hwaiter : x.serve.link.pending.lookup t.id = some ⟨trace, call'⟩ :=
      HostLink.route_snd_eq_ok.1 (by rw [hroute])
    obtain ⟨trace', payload, k, -, hw⟩ := hwaits
    cases hw.symm.trans hwaiter
    refine ⟨rfl, answer, hpayload, ?_, fun n hn => ?_⟩
    · rw [hcalls]
      exact observe_reply hc ht hreplyTo hpayload
    · rw [hcalls]
      simp only [observe, hreplyTo, hpayload, deliver, hc, ht, if_true]
      exact Function.update_of_ne hn ..
  | accepted hreq | refused hreq | cancelled hreq | acknowledged hreq | heartbeat hreq | shutdown hreq =>
    cases hreq.replyTo.symm.trans hreplyTo

open Serve (sampleSetup)

/-- The action of the sample session has reserved the ID of its host call. -/
theorem sampleCalling_steps : ∃ (x : Session) (c : ContextCall) (t : Ticket),
    Steps (Step samplePlatform) (init sampleSetup) sampleCalling x ∧ x.calls 0 = some c ∧ c.ticket = some t ∧
      t.reply = none ∧ x.serve.link.reserved.isSome ∧ x.serve.loop = .head ∧
      x.serve.session = ⟨⟨"session", "instance"⟩, 3, 10, 10⟩ := by
  have hact := sampleAction_canAct
  have hprogram : (Operation.program samplePlatform sampleContext (.hostCall sampleCall)).run = _ :=
    congrArg (fun p => ExceptT.run (ExceptT.mk p >>= fun response => pure (Returned.response response)))
      (@ActionContext.hostCall_run sampleContext sampleCall .getConfig _ rfl rfl)
  have hbegin : Step samplePlatform sampleRunning (.internal sampleAction 0) _ :=
    @Step.begin _ sampleRunning sampleAction 0 sampleContext (.hostCall sampleCall) hact rfl rfl
  rw [hprogram] at hbegin
  have hr := sampleRunning_steps.snoc hbegin
  have hr := hr.snoc (.of_call (.ensureActive_of_active hact rfl rfl))
  have hr := hr.snoc (.of_call (.poll hact rfl rfl rfl rfl))
  have hr := hr.snoc (.of_link (.reserve hact rfl rfl rfl rfl rfl))
  exact ⟨_, _, _, hr, calls_setCall_self .., rfl, rfl, rfl, rfl, rfl⟩

theorem lock_held_sampleCalling : ∃ x, Steps (Step samplePlatform) (init sampleSetup) sampleCalling x ∧
    ∀ r, x.serve.link.reserved = some r → ∃ c, x.calls r.call = some c ∧ x.serve.CanAct c.actor ∧ c.HoldsFor r := by
  obtain ⟨x, -, -, hr, -⟩ := sampleCalling_steps
  exact ⟨x, hr, (lock_held hr).2.1⟩

def sampleAnswer : PluginEnvelope :=
  sampleSetup.session.identity.stamp 4 ⟨some 4, sampleCallTrace, .hostResult ⟨some (.getConfig ⟨none⟩)⟩⟩

/-- The host answers the call, whose oneshot then holds the payload. -/
theorem reply_delivered_sampleAnswer : ∃ (x : Session) (c : ContextCall) (x' : Session),
    Steps (Step samplePlatform) (init sampleSetup)
      (sampleCalling ++ [ServeEvent.emitted sampleAction 0 (sampleCalled sampleCall)]) x ∧
    Step samplePlatform x (.received sampleAnswer (some 0)) x' ∧ c.Waits x.serve.link 0 ⟨4, true, none⟩ ∧
    x'.calls 0 = some (c.withReply ⟨4, true, none⟩ (.hostResult ⟨some (.getConfig ⟨none⟩)⟩)) := by
  obtain ⟨x, c, hr, hc, ht, hloop, hsession, -, hlookup⟩ := @sampleCalled_steps sampleCall .getConfig rfl
  have hvalid : validateEnvelope sampleAnswer x.serve.session = .ok
    (sampleCallTrace, ⟨⟨"session", "instance"⟩, 4, 10, 10⟩) := by
    rw [hsession]
    exact validateEnvelope_eq_ok.2 ⟨by decide, rfl, rfl, rfl, ⟨by decide, by decide, by decide⟩, rfl⟩
  have hs : Step samplePlatform x (.received sampleAnswer (some 0)) _ :=
    .loop (.of_process hloop (Serve.process_of_reply hvalid rfl rfl rfl hlookup))
  have hlive : x.serve.Live := by simp [Serve.Live, hloop]
  obtain ⟨hwaits, hdelivered⟩ := reply_delivered hr hlive hc ht rfl
  obtain ⟨-, answer, hanswer, hcalls, -⟩ := hdelivered sampleAnswer (some 0) _ hs rfl (by simp [Serve.Live, hloop])
  cases hanswer
  exact ⟨x, c, _, hr, hs, hwaits, hcalls⟩

end Session

end PluginSdk
