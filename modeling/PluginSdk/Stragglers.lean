import PluginSdk.Bracketing
import PluginSdk.Origins
import PluginSdk.Wakeup

/-!
# Stragglers

A poll that has found the cancellation value active goes on to its other future, and nothing holds the value active
until that future has enqueued.  So an envelope of a job can follow the messages that settle it.  This is as far as
it goes: once the value has left active, each call whose poll has found it active enqueues at most the one envelope
that it was about to send, and no other call enqueues any (`Session.stragglers`).
-/

namespace PluginSdk

open Lts

/-- The current poll of the call has found the cancellation value active, and its envelope is still to be enqueued. -/
structure ContextCall.Straggles (c : ContextCall) (trace : TraceContext) (payload : Payload) : Prop where
  polled : c.polled = true
  sends : (∃ k, c.program = .op (.send trace payload) k) ∨
    (∃ k, c.program = .op (.request trace payload) k) ∧ ∀ t, c.ticket = some t → t.sent = false

/-- The call through a context of the job whose envelope an event enqueues. -/
def ServeEvent.emitter (inst : Nat) : ServeEvent → Option Nat
  | .emitted actor call _ => if actor.inst = inst then some call else none
  | _ => none

private theorem ServeEvent.emitter_eq_some {inst call : Nat} {e : ServeEvent} (h : e.emitter inst = some call) :
    ∃ actor envelope, e = .emitted actor call envelope ∧ actor.inst = inst := by
  cases e with
  | emitted actor call' envelope =>
    unfold emitter at h
    dsimp only at h
    split at h
    · rename_i hinst
      exact ⟨actor, envelope, by rw [Option.some.inj h], hinst⟩
    · cases h
  | _ => cases h

/-! ### The steps of a call -/

namespace ContextCall

variable {s s' : Serve} {c c' : ContextCall} {e : ServeEvent} {call : Nat} {trace : TraceContext} {payload : Payload}

private theorem not_straggles_resume (c : ContextCall)
    (program : Program ContextOp ContextOp.Reply (Except SdkError Returned)) :
    ¬ (c.resume program).Straggles trace payload := fun h => Bool.noConfusion h.polled

/-- A request that has been enqueued is no straggler. -/
private theorem not_straggles_sent {k : Selected (Except SdkError Payload) → _} {trace' : TraceContext}
    {payload' : Payload} {t : Ticket} (hp : c.program = .op (.request trace' payload') k) (ht : c.ticket = some t)
    (hsent : t.sent = true) : ¬ c.Straggles trace payload := by
  rintro ⟨-, ⟨k', hsend⟩ | ⟨-, hunsent⟩⟩
  · rw [hp] at hsend
    cases hsend
  · rw [hunsent t ht] at hsent
    cases hsent

/-- Once the value has left active no call comes to straggle, and one that still does has not enqueued. -/
private theorem Step.straggles (hs : ContextCall.Step call s c e s' c') (hleft : ¬ c.IsActive s)
    (hc : c'.Straggles trace payload) : c.Straggles trace payload ∧ ∀ inst, e.emitter inst = none := by
  cases hs with
  | poll _ _ _ _ hactive => exact absurd hactive hleft
  | suspend => exact absurd hc.polled (by simp)
  | reserve _ hp hpolled hticket =>
    refine ⟨⟨hpolled, ?_⟩, fun _ => rfl⟩
    rcases hc.sends with hsend | ⟨hrequest, -⟩
    · exact Or.inl hsend
    · exact Or.inr ⟨hrequest, by simp [hticket]⟩
  | commit _ hp => exact absurd hc (not_straggles_sent hp rfl rfl)
  | _ => exact absurd hc (not_straggles_resume _ _)

/-- A call that enqueues has straggled, and does so no more. -/
private theorem Step.straggled {actor : Actor} {call' : Nat} {envelope : PluginEnvelope}
    (hs : ContextCall.Step call s c (.emitted actor call' envelope) s' c') :
    call' = call ∧ c.actor = actor ∧ (∀ trace payload, ¬ c'.Straggles trace payload) ∧
      ∃ trace payload, c.Straggles trace payload ∧ envelope.trace = some trace ∧ envelope.payload = some payload := by
  cases hs with
  | emit _ hp hpolled _ _ hsend =>
    obtain ⟨rfl, -⟩ := HostLink.send_eq_ok hsend
    exact ⟨rfl, rfl, fun _ _ => not_straggles_resume _ _, _, _, ⟨hpolled, Or.inl ⟨_, hp⟩⟩, rfl, rfl⟩
  | commit _ hp hpolled hticket =>
    refine ⟨rfl, rfl, fun _ _ => not_straggles_sent hp rfl rfl, _, _,
      ⟨hpolled, Or.inr ⟨⟨_, hp⟩, fun t ht => ?_⟩⟩, rfl, rfl⟩
    rw [hticket] at ht
    rw [← Option.some.inj ht]

end ContextCall

namespace Serve

variable {s s' : Serve} {e : ServeEvent} {inst : Nat}

/-- The value of a job that has left active does not become active again. -/
private theorem Step.left (hs : Step s e s') (hi : inst < s.spawned) (hc : s.cells inst ≠ .active) :
    inst < s'.spawned ∧ s'.cells inst ≠ .active := by
  have hlt : inst < s'.spawned := by
    cases hs with
    | task hs => exact hs.frame.spawned ▸ hi
    | context hs => exact hs.frame.spawned ▸ hi
    | loop hs => exact lt_of_lt_of_le hi hs.tasks.1
  refine ⟨hlt, ?_⟩
  rcases hs.cell hlt with ⟨hle, -⟩ | ⟨-, hsame | ⟨t, ht⟩⟩
  · omega
  · rwa [hsame]
  · rw [ht]
    cases t with
    | cancel => exact CancellationValue.cancel_ne_active _
    | finish => exact CancellationValue.finish_ne_active _

/-- The context of a job has the value of the job. -/
private theorem Step.spawned_cancellation {context : ActionContext} (hs : Step s (.spawned inst context) s') :
    context.cancellation = inst := by
  cases hs with
  | task hs => cases hs
  | context hs => cases hs
  | loop hs =>
    cases hs with
    | spawn => rfl

/-- The finish guard of an action takes the value of its job out of active. -/
private theorem Step.finished {jobId : String} (hm : s.Matched) (hs : Step s (.task inst jobId .finished) s') :
    inst < s'.spawned ∧ s'.cells inst ≠ .active := by
  cases hs with
  | loop hs => cases hs
  | context hs => cases hs
  | task hs =>
    cases hs with
    | finish ht =>
      refine ⟨hm.inst_lt ht, ?_⟩
      change Function.update s.cells inst _ inst ≠ _
      rw [Function.update_self]
      exact CancellationValue.finish_ne_active _

end Serve

namespace Session

variable {platform : Platform} {setup : Setup} {h w : List ServeEvent} {e : ServeEvent}
  {x y y' : Session} {inst : Nat}

/-- The context of a call has the value of the job that it belongs to. -/
private theorem cancellation_of_call (hr : Steps (Step platform) (init setup) h x) {call : Nat} {c : ContextCall}
    (hc : x.calls call = some c) : c.context.cancellation = c.actor.inst := by
  obtain ⟨h₁, h₂, rfl⟩ := List.append_of_mem ((spawned hr).calls call c hc)
  obtain ⟨t, t', -, hs, -⟩ := (run_serve hr).split
  exact hs.spawned_cancellation

/-- What the calls of a job have enqueued since its value left active, and what they may still enqueue: `x` is the
session then, `w` what has happened since, and `y` the session now. -/
structure Straggling (inst : Nat) (x : Session) (w : List ServeEvent) (y : Session) : Prop where
  spawned : inst < y.serve.spawned
  left : y.serve.cells inst ≠ .active
  calls : ∀ call c' trace payload, y.calls call = some c' → c'.actor.inst = inst → c'.Straggles trace payload →
    call ∉ w.filterMap (·.emitter inst) ∧ ∃ c, x.calls call = some c ∧ c.actor = c'.actor ∧ c.Straggles trace payload
  emitted : ∀ actor call envelope, .emitted actor call envelope ∈ w → actor.inst = inst →
    ∃ c trace payload, x.calls call = some c ∧ c.actor = actor ∧ c.Straggles trace payload ∧
      envelope.trace = some trace ∧ envelope.payload = some payload
  nodup : (w.filterMap (·.emitter inst)).Nodup

/-- A step that enqueues nothing through a context of the job. -/
private theorem Straggling.keep (hx : Straggling inst x w y) (hs : Step platform y e y') (he : e.emitter inst = none)
    (hcalls : ∀ call c' trace payload, y'.calls call = some c' → c'.actor.inst = inst → c'.Straggles trace payload →
      ∃ c, y.calls call = some c ∧ c.actor = c'.actor ∧ c.Straggles trace payload) :
    Straggling inst x (w ++ [e]) y' := by
  obtain ⟨hspawned, hleft⟩ := hs.serve.left hx.spawned hx.left
  have hemitters : (w ++ [e]).filterMap (·.emitter inst) = w.filterMap (·.emitter inst) := by
    rw [List.filterMap_append, List.filterMap_cons_none he, List.filterMap_nil, List.append_nil]
  refine ⟨hspawned, hleft, fun call c' trace payload hc' hinst hst => ?_,
    fun actor call envelope hmem hinst => ?_, ?_⟩
  · obtain ⟨c, hc, hactor, hst⟩ := hcalls call c' trace payload hc' hinst hst
    obtain ⟨hnot, c₀, hc₀, hactor₀, hst₀⟩ := hx.calls call c trace payload hc (by rw [hactor, hinst]) hst
    exact ⟨hemitters ▸ hnot, c₀, hc₀, hactor₀.trans hactor, hst₀⟩
  · rcases List.mem_append.1 hmem with hmem | hmem
    · exact hx.emitted actor call envelope hmem hinst
    · obtain rfl := List.mem_singleton.1 hmem
      simp [ServeEvent.emitter, hinst] at he
  · rw [hemitters]
    exact hx.nodup

/-- A step that enqueues the envelope of a call. -/
private theorem Straggling.emit (hx : Straggling inst x w y) {actor : Actor} {call : Nat} {envelope : PluginEnvelope}
    {c c' : ContextCall} {trace : TraceContext} {payload : Payload} (hinst : actor.inst = inst)
    (hs : Step platform y (.emitted actor call envelope) y') (hc : y.calls call = some c) (hactor : c.actor = actor)
    (hst : c.Straggles trace payload) (htrace : envelope.trace = some trace)
    (hpayload : envelope.payload = some payload) (hc' : y'.calls = Function.update y.calls call (some c'))
    (hno : ∀ trace payload, ¬ c'.Straggles trace payload) :
    Straggling inst x (w ++ [.emitted actor call envelope]) y' := by
  obtain ⟨hspawned, hleft⟩ := hs.serve.left hx.spawned hx.left
  obtain ⟨hnot, c₀, hc₀, hactor₀, hst₀⟩ := hx.calls call c trace payload hc (by rw [hactor, hinst]) hst
  have hemitters : (w ++ [ServeEvent.emitted actor call envelope]).filterMap (·.emitter inst) =
      w.filterMap (·.emitter inst) ++ [call] := by
    rw [List.filterMap_append]
    simp [ServeEvent.emitter, hinst]
  refine ⟨hspawned, hleft, fun call' d trace' payload' hd hd' hst' => ?_,
    fun actor' call' envelope' hmem hinst' => ?_, ?_⟩
  · rw [hc'] at hd
    by_cases heq : call' = call
    · subst heq
      rw [Function.update_self, Option.some.injEq] at hd
      exact absurd (hd ▸ hst') (hno _ _)
    · rw [Function.update_of_ne heq] at hd
      obtain ⟨hnot', hrest⟩ := hx.calls call' d trace' payload' hd hd' hst'
      refine ⟨?_, hrest⟩
      rw [hemitters, List.mem_append, List.mem_singleton]
      exact not_or.2 ⟨hnot', heq⟩
  · rcases List.mem_append.1 hmem with hmem | hmem
    · exact hx.emitted actor' call' envelope' hmem hinst'
    · cases List.mem_singleton.1 hmem
      exact ⟨c₀, trace, payload, hc₀, hactor₀.trans hactor, hst₀, htrace, hpayload⟩
  · rw [hemitters, List.nodup_append]
    exact ⟨hx.nodup, by simp, fun a ha b hb => by rw [List.mem_singleton.1 hb]; rintro rfl; exact hnot ha⟩

/-- Putting a reply into the oneshot of a request brings no call to straggle. -/
private theorem straggles_of_observe {call : Nat} {c' : ContextCall} {trace : TraceContext} {payload : Payload}
    (hc' : (y.observe e).calls call = some c') (hst : c'.Straggles trace payload) :
    ∃ c, y.calls call = some c ∧ c.actor = c'.actor ∧ c.Straggles trace payload := by
  rcases observe_calls hc' with hc | ⟨c, t, reply, answer, -, hc, ht, -, -, rfl⟩
  · exact ⟨c', hc, rfl, hst⟩
  · refine ⟨c, hc, rfl, hst.polled, ?_⟩
    rcases hst.sends with hsend | ⟨hrequest, hunsent⟩
    · exact Or.inl hsend
    · refine Or.inr ⟨hrequest, fun t' ht' => ?_⟩
      rw [ht] at ht'
      have hsent := hunsent _ rfl
      rw [← Option.some.inj ht']
      exact hsent

private theorem Step.straggling (hs : Step platform y e y')
    (haddress : ∀ call c, y.calls call = some c → c.context.cancellation = c.actor.inst)
    (hx : Straggling inst x w y) : Straggling inst x (w ++ [e]) y' := by
  have hs' := hs
  cases hs with
  | loop hs =>
    refine hx.keep hs' ?_ fun call c' trace payload hc' _ hst => straggles_of_observe hc' hst
    cases hs <;> rfl
  | task hs =>
    refine hx.keep hs' ?_ fun call c' _ _ hc' _ hst => ⟨c', hc', rfl, hst⟩
    cases hs <;> rfl
  | stream hs hstream =>
    refine hx.keep hs' ?_ fun call c' _ _ hc' _ hst => ⟨c', hc', rfl, hst⟩
    cases hs <;> first | rfl | exact hstream.elim
  | begin =>
    -- a new call is not polled yet
    refine hx.keep hs' rfl fun call c' _ _ hc' _ hst => ?_
    rcases setCall_calls hc' with ⟨-, heq⟩ | hc
    · cases heq
      cases hst.polled
    · exact ⟨c', hc, rfl, hst⟩
  | @call call c c' e serve hc hs =>
    by_cases hemits : e.emitter inst = none
    · refine hx.keep hs' hemits fun call' d' trace payload hd' hinst hst => ?_
      rcases setCall_calls hd' with ⟨rfl, heq⟩ | hd
      · cases heq
        obtain ⟨hactor, -⟩ := hs.context_eq
        have hleft : ¬ c.IsActive y.serve := by
          unfold ContextCall.IsActive
          rw [haddress _ _ hc, ← hactor, hinst]
          exact hx.left
        exact ⟨c, hc, hactor.symm, (hs.straggles hleft hst).1⟩
      · exact ⟨d', hd, rfl, hst⟩
    · obtain ⟨call', hemitter⟩ := Option.ne_none_iff_exists'.1 hemits
      obtain ⟨actor, envelope, rfl, hinst⟩ := ServeEvent.emitter_eq_some hemitter
      obtain ⟨rfl, hactor, hno, trace, payload, hst, htrace, hpayload⟩ := hs.straggled
      exact hx.emit hinst hs' hc hactor hst htrace hpayload rfl hno
  | returned | drop | dropReserved =>
    refine hx.keep hs' rfl fun call c' _ _ hc' _ hst => ?_
    rcases setCall_calls hc' with ⟨-, heq⟩ | hc
    · cases heq
    · exact ⟨c', hc, rfl, hst⟩

/-- Once the cancellation value of a job has left active, a call through a context of the job enqueues at most one
more envelope, and this only if its poll had found the value active before: it is the envelope that the call was
sending then.  Calls that begin later enqueue nothing. -/
theorem stragglers (hr : Steps (Step platform) (init setup) h x) (hspawned : inst < x.serve.spawned)
    (hleft : x.serve.cells inst ≠ .active) (hw : Steps (Step platform) x w y) :
    (w.filterMap (·.emitter inst)).Nodup ∧
      ∀ actor call envelope, .emitted actor call envelope ∈ w → actor.inst = inst →
        ∃ c trace payload, x.calls call = some c ∧ c.actor = actor ∧ c.Straggles trace payload ∧
          envelope.trace = some trace ∧ envelope.payload = some payload := by
  have hrun : Straggling inst x w y := by
    refine Steps.history (I := Straggling inst x) ⟨hspawned, hleft, fun call c trace payload hc _ hst =>
      ?_, by simp, by simp⟩ (fun w t e t' hw hs hx =>
        hs.straggling (fun call c hc => cancellation_of_call (hr.trans hw) hc) hx) hw
    exact ⟨by simp, c, hc, rfl, hst⟩
  exact ⟨hrun.nodup, hrun.emitted⟩

open Serve (sampleTrace sampleJobId sampleSetup)

/-- The log record of the sample session that follows the settlement is the one that its call was writing. -/
theorem stragglers_sampleLate : ∃ x y c, Steps (Step samplePlatform) (init sampleSetup) (sampleLate.take 10) x ∧
    Steps (Step samplePlatform) x (sampleLate.drop 10) y ∧ x.serve.cells 0 ≠ .active ∧ x.calls 0 = some c ∧
    c.Straggles sampleTrace (.log sampleRecord) := by
  obtain ⟨y, hr⟩ := @sampleLate_steps samplePlatform
  rw [← List.take_append_drop 10 sampleLate] at hr
  obtain ⟨x, hx, hy⟩ := hr.append_inv
  obtain ⟨t, ht, hs⟩ := Steps.snoc_inv
    (show Steps _ _ (sampleLate.take 9 ++ [.task 0 sampleJobId .finished]) x from hx)
  obtain ⟨hspawned, hleft⟩ := hs.serve.finished (Serve.matched (run_serve ht))
  obtain ⟨c, trace, payload, hc, -, hst, htrace, hpayload⟩ := (stragglers hx hspawned hleft hy).2 sampleClone 0
    (sampleEnvelope 5 (.log sampleRecord)) (by simp [sampleLate, sampleSettled, samplePolled]) rfl
  cases htrace
  cases hpayload
  exact ⟨x, y, c, hx, hy, hleft, hc, hst⟩

end Session

end PluginSdk
