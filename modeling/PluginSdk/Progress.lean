import Mathlib.Data.Set.Card
import PluginSdk.Blame
import PluginSdk.Lib.Potential
import PluginSdk.Locking
import PluginSdk.Shutdown

/-!
# The session does not get stuck

Whatever the loop is busy with, it can bring it to its end: with its own steps, the steps by which the runtime ends
the tasks that the loop has aborted, those of the output stream, and those of the one call that holds the sender
lock (`Session.operation_ends`).  The loop never waits for another envelope of the host, nor for an action to do
anything of its own accord, and as long as the output stream is open the operation does not fail.

A session sends an envelope that is no request in one step, so such a send never holds the lock while it waits for
channel capacity; only a request does.
-/

namespace PluginSdk

open Lts

variable {platform : Platform} {setup : Setup} {x x' : Session} {e : ServeEvent} {h : List ServeEvent}

namespace ServeEvent

/-- What the runtime does to the task of an action. -/
def OfRuntime : ServeEvent → Prop
  | .task _ _ .aborted | .task _ _ .finished | .task _ _ .completed => True
  | _ => False

end ServeEvent

private theorem Serve.mem_setPhase_same {s : Serve} {inst : Nat} {jobId : String} {phase : TaskPhase}
    (phase' : TaskPhase) (ht : ⟨inst, jobId, phase⟩ ∈ s.jobs.tasks) :
    ⟨inst, jobId, phase'⟩ ∈ (s.setPhase inst phase').jobs.tasks :=
  List.mem_map.2 ⟨_, ht, if_pos rfl⟩

namespace Session

/-- The steps that do not depend on what the host sends and on what the actions choose to do. -/
inductive Driven (platform : Platform) : Session → ServeEvent → Session → Prop
  /-- The loop goes on with the operation it is busy with. -/
  | loop {x : Session} {e : ServeEvent} {serve : Serve} : x.serve.loop ≠ .head → Serve.LoopStep x.serve e serve →
      Driven platform x e { x.observe e with serve }
  | task {x : Session} {e : ServeEvent} {serve : Serve} : Serve.TaskStep x.serve e serve → e.OfRuntime →
      (∀ inst, e.drops = some inst → ∀ call c, x.calls call = some c → c.actor.future ≠ some inst) →
      Driven platform x e { x with serve }
  | consume {x : Session} {serve : Serve} : Serve.ContextStep x.serve .consumed serve →
      Driven platform x .consumed { x with serve }
  /-- The call that holds the sender lock is polled. -/
  | holder {x : Session} {r : Reservation} {c c' : ContextCall} {e : ServeEvent} {serve : Serve} :
      x.serve.link.reserved = some r → x.calls r.call = some c → ContextCall.Step r.call x.serve c e serve c' →
      Driven platform x e { x.setCall r.call (some c') with serve }
  /-- The future of an aborted task drops its calls. -/
  | drop {x : Session} {call inst : Nat} {c : ContextCall} : x.serve.Aborting → x.calls call = some c →
      c.actor.future = some inst → x.serve.CanAct c.actor → ¬ c.Holds →
      Driven platform x (.internal c.actor call) (x.setCall call none)
  | dropReserved {x : Session} {inst : Nat} {c : ContextCall} {r : Reservation} : x.serve.Aborting →
      x.calls r.call = some c → c.actor.future = some inst → x.serve.CanAct c.actor → c.Holds →
      x.serve.link.reserved = some r →
      Driven platform x (.released r.call)
        { x.setCall r.call none with serve := { x.serve with link := x.serve.link.release r } }

private theorem Driven.session (hs : Driven platform x e x') : Step platform x e x' := by
  cases hs with
  | loop _ hs => exact .loop hs
  | task hs hruntime hdrops =>
    refine .task hs (fun a ha => ?_) hdrops
    cases hs with
    | stop => exact hruntime.elim
    | _ => cases ha
  | consume hs => exact .stream hs trivial
  | holder _ hc hs => exact .call hc hs
  | drop _ hc _ hact hholds => exact .drop hc hact hholds
  | dropReserved _ hc _ hact hholds hreserved => exact .dropReserved hc hact hholds hreserved

/-- The output stream stays as it is. -/
private theorem Driven.closed_eq (hs : Driven platform x e x') : x'.serve.link.closed = x.serve.link.closed := by
  rcases hs.session.serve.link.2 with heq | ⟨rfl, -⟩
  · exact heq
  · cases hs with
    | loop _ hs => cases hs
    | task hs => cases hs
    | holder _ _ hs => cases hs

private theorem driven_closed {w : List ServeEvent} {u : Session} (hw : Steps (Driven platform) x w u) :
    u.serve.link.closed = x.serve.link.closed :=
  hw.invariant (I := fun u => u.serve.link.closed = x.serve.link.closed)
    (fun _ _ _ hs hu => hs.closed_eq.trans hu) rfl

/-- A state of some run from the start. -/
def Reached (platform : Platform) (setup : Setup) (x : Session) : Prop :=
  ∃ h, Steps (Step platform) (init setup) h x

private theorem Driven.reached (x : Session) (e : ServeEvent) (x' : Session) (hs : Driven platform x e x')
    (hx : Reached platform setup x) : Reached platform setup x' := by
  obtain ⟨h, hr⟩ := hx
  exact ⟨h ++ [e], .snoc hr hs.session⟩

/-! ### Room in the channel, and the lock -/

/-- The output stream makes room for one more envelope. -/
private theorem Reached.room (hx : Reached platform setup x) (hopen : x.serve.link.closed = false) :
    Reaches (Driven platform) x fun u =>
      (∃ n, u = { x with serve := { x.serve with link := { x.serve.link with consumed := n } } }) ∧
        u.serve.link.HasRoom := by
  obtain ⟨h, hr⟩ := hx
  by_cases hroom : x.serve.link.HasRoom
  · exact .here ⟨⟨_, rfl⟩, hroom⟩
  · have hcapacity : x.serve.link.capacity = outgoingCapacity := link_capacity hr
    have hfull := (link_sound hr).room
    unfold HostLink.HasRoom at hroom
    rw [hcapacity] at hroom hfull
    have hpos : 0 < outgoingCapacity := by decide
    refine .single (.consume (.consume hopen (by omega))) ⟨⟨_, rfl⟩, ?_⟩
    unfold HostLink.HasRoom
    simp only [hcapacity]
    omega

/-- The call that holds the lock is being polled, and gives it up. -/
private theorem Reached.free_of_polled (hx : Reached platform setup x) {r : Reservation} {c : ContextCall}
    (hreserved : x.serve.link.reserved = some r) (hc : x.calls r.call = some c) (hfor : c.HoldsFor r)
    (hpolled : c.polled = true) :
    Reaches (Driven platform) x fun u => u.serve.link.reserved = none ∧ u.serve.loop = x.serve.loop := by
  obtain ⟨h, hr⟩ := hx
  have hact := acts hr _ c hc
  obtain ⟨trace, payload, k, reply, hprogram, hticket, hout⟩ := hfor
  obtain ⟨call, id, outgoing⟩ := r
  obtain rfl : outgoing = ⟨none, trace, payload⟩ := hout
  by_cases hclosed : x.serve.link.closed = true
  · exact .single (.holder hreserved hc (.commitFailed hact hprogram hpolled hticket hreserved hclosed)) ⟨rfl, rfl⟩
  · have hopen : x.serve.link.closed = false := Bool.eq_false_iff.2 hclosed
    refine .trans Driven.reached ⟨h, hr⟩ (Reached.room ⟨h, hr⟩ hopen) fun u _ hu => ?_
    obtain ⟨⟨n, rfl⟩, hroom⟩ := hu
    exact .single (.holder hreserved hc (.commit hact hprogram hpolled hticket hreserved hopen hroom)) ⟨rfl, rfl⟩

/-- The sender lock becomes free. -/
private theorem Reached.free (hx : Reached platform setup x) :
    Reaches (Driven platform) x fun u => u.serve.link.reserved = none ∧ u.serve.loop = x.serve.loop := by
  obtain ⟨h, hr⟩ := hx
  cases hreserved : x.serve.link.reserved with
  | none => exact .here ⟨hreserved, rfl⟩
  | some r =>
    obtain ⟨c, hc, hfor⟩ := (locked hr).holder r hreserved
    by_cases hpolled : c.polled = true
    · exact Reached.free_of_polled ⟨h, hr⟩ hreserved hc hfor hpolled
    · have hact := acts hr _ c hc
      have hidle : c.polled = false := Bool.eq_false_iff.2 hpolled
      obtain ⟨trace, payload, k, reply, hprogram, hticket, hout⟩ := id hfor
      by_cases hactive : c.IsActive x.serve
      · have hs : Driven platform x _ _ := .holder hreserved hc (.poll hact hprogram rfl hidle hactive)
        refine .step hs ?_
        refine Reached.free_of_polled (hs.reached _ _ _ ⟨h, hr⟩) hreserved (calls_setCall_self ..) ?_ rfl
        exact ⟨trace, payload, k, reply, hprogram, hticket, hout⟩
      · exact .single (.holder hreserved hc
          (.cancelledReserved hact hprogram rfl hidle hactive hfor.holds hreserved rfl)) ⟨rfl, rfl⟩

/-! ### Sending -/

/-- The loop has failed because it could not send. -/
def Undelivered (x : Session) : Prop :=
  (∃ e, x.serve.loop = .returned (.error e)) ∧
    (x.serve.link.closed = true ∨ 2 ^ 64 ≤ x.serve.link.sender.nextMessageId + 1)

private theorem undelivered_of_send {serve : Serve} {o : Outgoing} {link : HostLink} {err : SdkError}
    (hsend : serve.link.send o = (link, .error err)) :
    Undelivered { x with serve := { serve with link }.fail err } := by
  refine ⟨⟨err, rfl⟩, ?_⟩
  change link.closed = true ∨ 2 ^ 64 ≤ link.sender.nextMessageId + 1
  unfold HostLink.send at hsend
  split at hsend
  · rename_i ha
    cases hsend
    exact Or.inr (SenderState.allocate_eq_error.1 ha).1
  · split at hsend
    · rename_i hclosed
      cases hsend
      exact Or.inl hclosed
    · cases hsend

/-- The loop comes to send: the lock is free, and the channel has room or is closed. -/
private theorem Reached.ready (hx : Reached platform setup x) : Reaches (Driven platform) x fun u =>
    u.serve.link.reserved = none ∧ u.serve.loop = x.serve.loop ∧
      (u.serve.link.closed = false → u.serve.link.HasRoom) := by
  refine .trans Driven.reached hx hx.free fun u hu hfree => ?_
  obtain ⟨hreserved, hloop⟩ := hfree
  by_cases hopen : u.serve.link.closed = false
  · refine .trans Driven.reached hu (hu.room hopen) fun v _ hv => .here ?_
    obtain ⟨⟨n, rfl⟩, hroom⟩ := hv
    exact ⟨hreserved, hloop, fun _ => hroom⟩
  · exact .here ⟨hreserved, hloop, fun h => absurd h hopen⟩

/-- The loop enqueues all that it has to send. -/
private theorem Reached.flush {queue : List Outgoing} {next : Next} (hx : Reached platform setup x)
    (hloop : x.serve.loop = .sending queue next) :
    Reaches (Driven platform) x fun u => u.serve.loop = .sending [] next ∨ Undelivered u := by
  induction queue generalizing x with
  | nil => exact .here (Or.inl hloop)
  | cons o queue ih =>
    refine .trans Driven.reached hx hx.ready fun u hu hready => ?_
    obtain ⟨hfree, hsame, hroom⟩ := hready
    rw [hloop] at hsame
    have hbusy : u.serve.loop ≠ .head := by simp [hsame]
    rcases hsend : u.serve.link.send o with ⟨link, result⟩
    cases result with
    | error err => exact .single (.loop hbusy (.sendFailed hsame hfree hsend)) (Or.inr (undelivered_of_send hsend))
    | ok env =>
      have hs : Driven platform u _ _ := .loop hbusy (.send hsame hfree (hroom (HostLink.closed_of_send hsend)) hsend)
      exact .step hs (ih (hs.reached _ _ _ hu) rfl)

/-! ### The tasks of a shutdown -/

/-- Only calls that were begun are alive, and these are finitely many. -/
theorem finite_calls (hr : Steps (Step platform) (init setup) h x) : {n | ∃ c, x.calls n = some c}.Finite := by
  refine hr.invariant (I := fun x => {n | ∃ c, x.calls n = some c}.Finite) (fun x e x' hs hx => ?_) ?_
  · have hset : ∀ call c (u : Session), u.calls = (x.setCall call c).calls →
      {n | ∃ c, u.calls n = some c}.Finite := by
      intro call c u hu
      refine (hx.insert call).subset fun n hn => ?_
      obtain ⟨c', hc'⟩ := hn
      rw [hu] at hc'
      rcases setCall_calls hc' with ⟨rfl, -⟩ | hold
      · exact Set.mem_insert ..
      · exact Set.mem_insert_of_mem _ ⟨c', hold⟩
    cases hs with
    | loop =>
      refine hx.subset fun n hn => ?_
      obtain ⟨c', hc'⟩ := hn
      rcases observe_calls hc' with hold | ⟨c, -, -, -, -, hold, -⟩
      · exact ⟨c', hold⟩
      · exact ⟨c, hold⟩
    | task | stream => exact hx
    | begin | returned | drop | dropReserved | call => exact hset _ _ _ rfl
  · exact Set.finite_empty.subset fun n hn => by cases hn.choose_spec

/-- The calls that the future of the action has begun. -/
def callsOf (x : Session) (inst : Nat) : Set Nat := {n | ∃ c, x.calls n = some c ∧ c.actor.future = some inst}

/-- The future of a task that is aborted drops its calls. -/
private theorem Reached.dropCalls (hx : Reached platform setup x) (hab : x.serve.Aborting) (inst : Nat) :
    Reaches (Driven platform) x fun u =>
      u.callsOf inst = ∅ ∧ u.serve.loop = x.serve.loop ∧ u.serve.jobs = x.serve.jobs := by
  refine .of_lower (m := fun u => (u.callsOf inst).ncard)
    (I := fun u => Reached platform setup u ∧ u.serve.loop = x.serve.loop ∧ u.serve.jobs = x.serve.jobs)
    (fun u hu => ?_) ⟨hx, rfl, rfl⟩
  obtain ⟨⟨h, hr⟩, hloop, hjobs⟩ := hu
  rcases (u.callsOf inst).eq_empty_or_nonempty with hnone | ⟨call, c, hc, hfuture⟩
  · exact Or.inl ⟨hnone, hloop, hjobs⟩
  · right
    have hact := acts hr _ c hc
    have hab' : u.serve.Aborting := by
      unfold Serve.Aborting
      rwa [hloop]
    -- one call less, whatever becomes of the link
    have hlt : ∀ v : Session, v.calls = (u.setCall call none).calls → (v.callsOf inst).ncard <
      (u.callsOf inst).ncard := by
      intro v hv
      refine Set.ncard_lt_ncard ⟨fun n hn => ?_, fun hsub => ?_⟩ ((finite_calls hr).subset fun n hn => ?_)
      · obtain ⟨c', hc', hfuture'⟩ := hn
        rw [hv] at hc'
        rcases setCall_calls hc' with ⟨-, heq⟩ | hold
        · cases heq
        · exact ⟨c', hold, hfuture'⟩
      · obtain ⟨c', hc', -⟩ := hsub ⟨c, hc, hfuture⟩
        rw [hv, calls_setCall_self] at hc'
        cases hc'
      · obtain ⟨c', hc', -⟩ := hn
        exact ⟨c', hc'⟩
    by_cases hholds : c.Holds
    · obtain ⟨r, hreserved, rfl⟩ := (locked hr).holds call c hc hholds
      have hs : Driven platform u _ _ := .dropReserved hab' hc hfuture hact hholds hreserved
      exact .single hs ⟨⟨hs.reached _ _ _ ⟨h, hr⟩, hloop, hjobs⟩, hlt _ rfl⟩
    · have hs : Driven platform u _ _ := .drop hab' hc hfuture hact hholds
      exact .single hs ⟨⟨hs.reached _ _ _ ⟨h, hr⟩, hloop, hjobs⟩, hlt _ rfl⟩

section Tasks

variable {inst : Nat} {jobId : String} {result : Except String Output}

/-- The task has ended with the result, and the loop and the other tasks wait. -/
def Completed (x : Session) (inst : Nat) (jobId : String) (result : Except String Output) (u : Session) : Prop :=
  u.serve.loop = x.serve.loop ∧ u.serve.jobs.tasks.length = x.serve.jobs.tasks.length ∧
    ⟨inst, jobId, .completed result⟩ ∈ u.serve.jobs.tasks

private theorem completed_of_task {serve : Serve} (hs : Serve.TaskStep x.serve e serve) (he : e.OfRuntime)
    (hdrops : ∀ inst, e.drops = some inst → ∀ call c, x.calls call = some c → c.actor.future ≠ some inst)
    (hu : Reaches (Driven platform) { x with serve } (Completed { x with serve } inst jobId result)) :
    Reaches (Driven platform) x (Completed x inst jobId result) := by
  obtain ⟨w, u, hw, hloop, hlength, hmem⟩ := hu
  have hkeys := congrArg List.length hs.frame.keys
  rw [taskKeys, taskKeys, List.length_map, List.length_map] at hkeys
  exact ⟨_, u, .cons (.task hs he hdrops) hw, hloop.trans hs.frame.loop, hlength.trans hkeys, hmem⟩

/-- A task whose future is gone comes to its end. -/
theorem completed_of_over {phase : TaskPhase} (ht : ⟨inst, jobId, phase⟩ ∈ x.serve.jobs.tasks)
    (hresult : phase.result = some result) : Reaches (Driven platform) x (Completed x inst jobId result) := by
  cases phase with
  | spawned | running => cases hresult
  | completed =>
    cases hresult
    exact .here ⟨rfl, rfl, ht⟩
  | finished =>
    cases hresult
    exact completed_of_task (.complete ht) trivial nofun (.here ⟨rfl, rfl, Serve.mem_setPhase_same _ ht⟩)
  | ended =>
    cases hresult
    have hfinished := Serve.mem_setPhase_same (.finished result) ht
    refine completed_of_task (.finish ht) trivial nofun (completed_of_task (.complete hfinished) trivial nofun ?_)
    exact .here ⟨rfl, rfl, Serve.mem_setPhase_same _ hfinished⟩

/-- An aborted task comes to its end, wherever it is. -/
private theorem Reached.complete (hx : Reached platform setup x) (hab : x.serve.Aborting) {phase : TaskPhase}
    (ht : ⟨inst, jobId, phase⟩ ∈ x.serve.jobs.tasks) :
    ∃ result, Reaches (Driven platform) x (Completed x inst jobId result) := by
  have hdropped : ∀ result, (∀ u : Session, u.serve.Aborting → ⟨inst, jobId, phase⟩ ∈ u.serve.jobs.tasks →
      (∀ inst', some inst = some inst' → ∀ call c, u.calls call = some c → c.actor.future ≠ some inst') →
        Reaches (Driven platform) u (Completed u inst jobId result)) →
      Reaches (Driven platform) x (Completed x inst jobId result) := by
    intro result hu
    refine .trans Driven.reached hx (hx.dropCalls hab inst) fun u _ hdropped => ?_
    obtain ⟨hnone, hloop, hjobs⟩ := hdropped
    obtain ⟨w, v, hw, hloop', hlength, hmem⟩ := hu u (by unfold Serve.Aborting; rwa [hloop]) (by rwa [hjobs]) (by
      rintro _ ⟨⟩ call c hc hfuture
      exact hnone.subset (show call ∈ u.callsOf inst from ⟨c, hc, hfuture⟩))
    exact ⟨w, v, hw, hloop'.trans hloop, hlength.trans (by rw [hjobs]), hmem⟩
  cases phase with
  | spawned =>
    refine ⟨.error "task was cancelled", hdropped _ fun u hab ht hnone =>
      completed_of_task (.abortSpawned hab ht) trivial hnone ?_⟩
    exact completed_of_over (Serve.mem_setPhase_same _ ht) rfl
  | running =>
    refine ⟨.error "task was cancelled", hdropped _ fun u hab ht hnone =>
      completed_of_task (.abort hab ht) trivial hnone ?_⟩
    exact completed_of_over (Serve.mem_setPhase_same _ ht) rfl
  | ended | finished | completed => exact ⟨_, completed_of_over ht rfl⟩

/-- The shutdown joins all tasks. -/
theorem Reached.drain {o : Outgoing} {deadline : Timestamp} (hx : Reached platform setup x)
    (hloop : x.serve.loop = .draining o deadline) :
    Reaches (Driven platform) x fun u => u.serve.loop = .draining o deadline ∧ u.serve.jobs.tasks = [] := by
  -- each round brings one task to its end and joins it
  refine .of_lower (m := fun u => u.serve.jobs.tasks.length)
    (I := fun u => Reached platform setup u ∧ u.serve.loop = .draining o deadline) (fun u hu => ?_) ⟨hx, hloop⟩
  obtain ⟨hu, hdraining⟩ := hu
  cases htasks : u.serve.jobs.tasks with
  | nil => exact Or.inl ⟨hdraining, rfl⟩
  | cons t rest =>
    right
    have hab : u.serve.Aborting := by
      unfold Serve.Aborting
      rw [hdraining]
      trivial
    have ht : ⟨t.inst, t.jobId, t.phase⟩ ∈ u.serve.jobs.tasks := by
      rw [htasks]
      exact List.mem_cons_self
    obtain ⟨result, hend⟩ := hu.complete hab ht
    refine .trans Driven.reached hu hend fun v hv hcompleted => ?_
    obtain ⟨hsame, hlength, hmem⟩ := hcompleted
    rw [hdraining] at hsame
    have hs : Driven platform v _ _ := .loop (by simp [hsame]) (.drain hsame hmem)
    refine .single hs ⟨⟨hs.reached _ _ _ hv, hsame⟩, ?_⟩
    rw [← htasks, ← hlength]
    exact List.length_filter_lt_length_iff_exists.2 ⟨_, hmem, by simp⟩

end Tasks

/-! ### The operations -/

/-- The loop has brought its operation to an end. -/
def Ended (x : Session) : Prop :=
  x.serve.loop = .head ∨ (∃ deadline, x.serve.loop = .returned (.ok deadline)) ∨ Undelivered x

/-- What the loop waits for is on the wire. -/
private theorem count_le {count : Nat} {deadline : Timestamp} (hr : Steps (Step platform) (init setup) h x)
    (hloop : x.serve.loop = .consuming count deadline) : count ≤ x.serve.link.wire.length := by
  have hserve : Steps Serve.Step (Serve.init setup) h x.serve := run_serve hr
  obtain ⟨h₁, ack, h₂, rfl, -, rfl⟩ := (Serve.drained hserve).consuming count deadline hloop
  rw [Serve.wire_eq hserve, List.filterMap_append, List.length_append, List.length_append, List.length_append,
    List.filterMap_cons]
  simp only [ServeEvent.enqueued, List.length_cons]
  omega

/-- The output stream takes out the acknowledgement of the shutdown. -/
private theorem Reached.ended_of_consuming {count : Nat} {deadline : Timestamp} (hx : Reached platform setup x)
    (hloop : x.serve.loop = .consuming count deadline) : Reaches (Driven platform) x Ended := by
  have hconsumed : Reaches (Driven platform) x fun u => u.serve.loop = .consuming count deadline ∧
      (u.serve.link.consumed < count → u.serve.link.closed = true) := by
    refine .of_lower (m := fun u => count - u.serve.link.consumed)
      (I := fun u => Reached platform setup u ∧ u.serve.loop = .consuming count deadline) (fun u hu => ?_) ⟨hx, hloop⟩
    obtain ⟨⟨h, hr⟩, hconsuming⟩ := hu
    -- an open stream takes one more envelope out, and a closed one ends the wait with an error
    by_cases hwaits : u.serve.link.consumed < count ∧ u.serve.link.closed = false
    · obtain ⟨hlt, hopen⟩ := hwaits
      have hle := count_le hr hconsuming
      have hs : Driven platform u _ _ := .consume (.consume hopen (by omega))
      refine Or.inr (.single hs ⟨⟨hs.reached _ _ _ ⟨h, hr⟩, hconsuming⟩, ?_⟩)
      show count - (u.serve.link.consumed + 1) < count - u.serve.link.consumed
      omega
    · exact Or.inl ⟨hconsuming, fun hlt => Bool.of_not_eq_false fun hopen => hwaits ⟨hlt, hopen⟩⟩
  refine .trans Driven.reached hx hconsumed fun u _ hu => ?_
  obtain ⟨hconsuming, hclosed⟩ := hu
  have hbusy : u.serve.loop ≠ .head := by simp [hconsuming]
  by_cases hlt : u.serve.link.consumed < count
  · refine .single (.loop hbusy (.finishFailed hconsuming hlt (hclosed hlt))) ?_
    exact Or.inr (Or.inr ⟨⟨_, rfl⟩, Or.inl (hclosed hlt)⟩)
  · exact .single (.loop hbusy (.finish hconsuming (Nat.le_of_not_lt hlt))) (Or.inr (Or.inl ⟨_, rfl⟩))

private theorem Reached.ended_of_acknowledging {o : Outgoing} {deadline : Timestamp} (hx : Reached platform setup x)
    (hloop : x.serve.loop = .acknowledging o deadline) : Reaches (Driven platform) x Ended := by
  refine .trans Driven.reached hx hx.ready fun u hu hready => ?_
  obtain ⟨hfree, hsame, hroom⟩ := hready
  rw [hloop] at hsame
  have hbusy : u.serve.loop ≠ .head := by simp [hsame]
  rcases hsend : u.serve.link.send o with ⟨link, result⟩
  cases result with
  | error err =>
    exact .single (.loop hbusy (.acknowledgeFailed hsame hfree hsend)) (Or.inr (Or.inr (undelivered_of_send hsend)))
  | ok env =>
    have hs : Driven platform u _ _ :=
      .loop hbusy (.acknowledge hsame hfree (hroom (HostLink.closed_of_send hsend)) hsend)
    exact .step hs ((hs.reached _ _ _ hu).ended_of_consuming rfl)

/-- A job that is being settled is still in the table. -/
theorem Reached.exists_lookup {queue : List Outgoing} {jobId : String} (hx : Reached platform setup x)
    (hloop : x.serve.loop = .sending queue (.remove jobId)) : ∃ job, x.serve.jobs.active.lookup jobId = some job := by
  obtain ⟨h, hr⟩ := hx
  have hagree := (Serve.matched (run_serve hr)).agree
  unfold Serve.Matches at hagree
  rw [hloop] at hagree
  obtain ⟨inst, hperm⟩ := hagree
  obtain ⟨job, hlookup, -⟩ := mem_activeKeys.1 (hperm.subset (List.mem_cons_self ..))
  exact ⟨job, hlookup⟩

private theorem Reached.ended_of_sending {queue : List Outgoing} {next : Next} (hx : Reached platform setup x)
    (hloop : x.serve.loop = .sending queue next) : Reaches (Driven platform) x Ended := by
  refine .trans Driven.reached hx (hx.flush hloop) fun u hu hflushed => ?_
  rcases hflushed with hsent | hundelivered
  · have hbusy : u.serve.loop ≠ .head := by simp [hsent]
    cases next with
    | head => exact .single (.loop hbusy (.resume hsent)) (Or.inl rfl)
    | spawn job =>
      obtain ⟨h, hr⟩ := hu
      have hinactive := ((Serve.matched (run_serve hr)).admitted hsent).1
      exact .single (.loop hbusy (.spawn hsent hinactive)) (Or.inl rfl)
    | remove jobId =>
      obtain ⟨job, hlookup⟩ := hu.exists_lookup hsent
      exact .single (.loop hbusy (.remove hsent hlookup)) (Or.inl rfl)
    | clear o deadline =>
      have hs : Driven platform u _ _ := .loop hbusy (.clear hsent)
      exact .step hs ((hs.reached _ _ _ hu).ended_of_acknowledging rfl)
  · exact .here (Or.inr (Or.inr hundelivered))

private theorem Reached.ended_of_draining {o : Outgoing} {deadline : Timestamp} (hx : Reached platform setup x)
    (hloop : x.serve.loop = .draining o deadline) : Reaches (Driven platform) x Ended := by
  refine .trans Driven.reached hx (hx.drain hloop) fun u hu hdrained => ?_
  obtain ⟨hdraining, htasks⟩ := hdrained
  have hs : Driven platform u _ _ := .loop (by simp [hdraining]) (.takeCancellations hdraining htasks (.refl _))
  exact .step hs ((hs.reached _ _ _ hu).ended_of_sending rfl)

/-- Whatever the loop is busy with comes to an end, without another envelope of the host and without a step that an
action makes of its own accord.  Unless the output stream is closed or the message IDs are exhausted it ends without
a failure.  The lock is held by requests only: a plain send takes it and enqueues in one step. -/
theorem operation_ends (hr : Steps (Step platform) (init setup) h x) (hlive : x.serve.Live) :
    ∃ w u, Steps (Driven platform) x w u ∧
      (u.serve.loop = .head ∨ (∃ deadline, u.serve.loop = .returned (.ok deadline)) ∨
        (∃ err, u.serve.loop = .returned (.error err)) ∧
          (x.serve.link.closed = true ∨ 2 ^ 64 ≤ u.serve.link.sender.nextMessageId + 1)) := by
  have hx : Reached platform setup x := ⟨h, hr⟩
  -- wherever the loop is, the places that follow are those of the lemmas above
  have hended : Reaches (Driven platform) x Ended := by
    cases hloop : x.serve.loop with
    | head => exact .here (Or.inl hloop)
    | sending => exact hx.ended_of_sending hloop
    | draining => exact hx.ended_of_draining hloop
    | acknowledging => exact hx.ended_of_acknowledging hloop
    | consuming => exact hx.ended_of_consuming hloop
    | returned | panicked => simp [Serve.Live, hloop] at hlive
  obtain ⟨w, u, hw, hu⟩ := hended
  refine ⟨w, u, hw, ?_⟩
  unfold Ended Undelivered at hu
  rwa [driven_closed hw] at hu

/-- An action that has ended is settled, whatever the host and the other actions do. -/
theorem settles {inst : Nat} {jobId : String} {phase : TaskPhase} {output : Output}
    (hr : Steps (Step platform) (init setup) h x) (hloop : x.serve.loop = .head)
    (ht : ⟨inst, jobId, phase⟩ ∈ x.serve.jobs.tasks) (hresult : phase.result = some (.ok output)) :
    ∃ w₁ y z w₂ u, Steps (Driven platform) x w₁ y ∧ Step platform y (.joined inst jobId) z ∧
      Steps (Driven platform) z w₂ u ∧
      (u.serve.loop = .head ∧ u.serve.jobs.active.lookup jobId = none ∨
        (∃ err, u.serve.loop = .returned (.error err)) ∧
          (x.serve.link.closed = true ∨ 2 ^ 64 ≤ u.serve.link.sender.nextMessageId + 1)) := by
  have hover : Reaches (Driven platform) x (Completed x inst jobId (.ok output)) := completed_of_over ht hresult
  obtain ⟨w₁, y, hw₁, hsame, -, hcompleted⟩ := hover
  have hy : Reached platform setup y := hw₁.invariant Driven.reached ⟨h, hr⟩
  obtain ⟨h', hr'⟩ := id hy
  obtain ⟨serve, queue, hjoin, hsending⟩ :=
    Serve.exists_join (Serve.matched (run_serve hr')) (hsame.trans hloop) hcompleted
  have hs : Step platform y (.joined inst jobId) { y.observe (.joined inst jobId) with serve } := .loop hjoin
  -- the lookup is the only thing that is left of the job once its settlement is enqueued
  have hsettled : Reaches (Driven platform) { y.observe (.joined inst jobId) with serve } fun u =>
      u.serve.loop = .head ∧ u.serve.jobs.active.lookup jobId = none ∨ Undelivered u := by
    have hz : Reached platform setup { y.observe (.joined inst jobId) with serve } := ⟨_, hr'.snoc hs⟩
    refine .trans Driven.reached hz (hz.flush hsending) fun u hu hflushed => ?_
    rcases hflushed with hsent | hundelivered
    · obtain ⟨job, hlookup⟩ := hu.exists_lookup hsent
      refine .single (.loop (by simp [hsent]) (.remove hsent hlookup)) (Or.inl ⟨rfl, ?_⟩)
      exact AList.lookup_erase ..
    · exact .here (Or.inr hundelivered)
  obtain ⟨w₂, u, hw₂, hu⟩ := hsettled
  refine ⟨w₁, y, _, w₂, u, hw₁, hs, hw₂, ?_⟩
  have hclosed : u.serve.link.closed = x.serve.link.closed := by
    rw [driven_closed hw₂, ← driven_closed hw₁]
    rcases hs.serve.link.2 with heq | ⟨hevent, -⟩
    · exact heq
    · cases hevent
  unfold Undelivered at hu
  rwa [hclosed] at hu

open Serve (sampleRequest sampleSetup)

/-- The host shuts the sample session down while the action holds the sender lock, and the shutdown comes to its
end. -/
theorem operation_ends_sampleCalling : ∃ x o deadline,
    Steps (Step samplePlatform) (init sampleSetup)
      (sampleCalling ++ [.received (sampleRequest 4 (.shutdown ⟨"maintenance", some ⟨0, 0⟩⟩)) none]) x ∧
    x.serve.loop = .draining o deadline ∧ x.serve.link.reserved.isSome ∧
    ∃ w u, Steps (Driven samplePlatform) x w u ∧ u.serve.loop ≠ .draining o deadline := by
  obtain ⟨x, -, -, hr, -, -, -, hreserved, hloop, hsession⟩ := sampleCalling_steps
  have hshutdown : x.serve.Request (sampleRequest 4 (.shutdown ⟨"maintenance", some ⟨0, 0⟩⟩)) _ _ _ :=
    Serve.sampleRequest_valid hsession (by decide)
  have hr := hr.snoc (.loop (.of_process hloop (Serve.process_of_shutdown hshutdown rfl)))
  obtain ⟨w, u, hw, hu⟩ := operation_ends hr trivial
  refine ⟨_, _, _, hr, rfl, hreserved, w, u, hw, ?_⟩
  rcases hu with hu | ⟨deadline, hu⟩ | ⟨⟨err, hu⟩, -⟩ <;> simp [hu]

/-- The action of the sample session returns an empty result. -/
theorem settles_sampleRunning : ∃ x w₁ y z w₂ u,
    Step samplePlatform sampleRunning (.task 0 Serve.sampleJobId (.ended (.ok (.ok ⟨none, []⟩)))) x ∧
      Steps (Driven samplePlatform) x w₁ y ∧ Step samplePlatform y (.joined 0 Serve.sampleJobId) z ∧
      Steps (Driven samplePlatform) z w₂ u ∧
      (u.serve.jobs.active.lookup Serve.sampleJobId = none ∨ ∃ err, u.serve.loop = .returned (.error err)) := by
  have hrunning : (⟨0, Serve.sampleJobId, .running⟩ : Task) ∈ sampleRunning.serve.jobs.tasks :=
    List.mem_singleton.2 rfl
  have hs : Step samplePlatform sampleRunning (.task 0 Serve.sampleJobId (.ended (.ok (.ok ⟨none, []⟩)))) _ :=
    .task (.stop hrunning) (by simp [ServeEvent.artifacts]) (fun inst _ call c hc => by cases hc)
  obtain ⟨w₁, y, z, w₂, u, hw₁, hjoin, hw₂, hu⟩ :=
    settles (sampleRunning_steps.snoc hs) rfl (Serve.mem_setPhase_same _ hrunning) rfl
  refine ⟨_, w₁, y, z, w₂, u, hs, hw₁, hjoin, hw₂, ?_⟩
  rcases hu with ⟨-, hlookup⟩ | ⟨herr, -⟩
  · exact Or.inl hlookup
  · exact Or.inr herr

end Session

end PluginSdk
