import PluginSdk.Answers
import PluginSdk.Outbound
import PluginSdk.Lib.Refinement

/-!
# Atomic sends

The calls of a session compete for the sender lock and wait in between, and the steps of one call are interleaved
with those of the others.  The lock makes them atomic: up to the moment at which an ID is taken, the interleaved
calls do what the operations of the link do one after the other (`Requests.refines_link`).  A session works on the
link by the same operations (`Session.refines_link`).  So what the operations keep holds of both.
-/

namespace PluginSdk

open Lts

/-! ### The link as a system of its own -/

/-- What an observer sees of the output channel and of the routing table. -/
inductive Shown
  | enqueued (envelope : PluginEnvelope)
  | delivered (replyTo call : Nat)
  | consumed
  | closed

namespace HostLink

inductive Event
  | sent (envelope : PluginEnvelope)
  | refused (e : SdkError)
  | reserved (call id : Nat)
  | committed (call : Nat) (envelope : PluginEnvelope)
  | released (call id : Nat)
  | burned
  | consumed
  | closed
  | routed (replyTo : Nat) (result : Except SdkError Nat)

def Event.shown : Event → Option Shown
  | .sent envelope | .committed _ envelope => some (.enqueued envelope)
  | .routed replyTo (.ok call) => some (.delivered replyTo call)
  | .consumed => some .consumed
  | .closed => some .closed
  | .routed _ (.error _) | .refused _ | .reserved _ _ | .released _ _ | .burned => none

inductive Step : HostLink → Event → HostLink → Prop
  | send {l l' : HostLink} {o : Outgoing} {env : PluginEnvelope} : l.reserved = none → l.HasRoom →
      l.send o = (l', .ok env) → Step l (.sent env) l'
  | sendFailed {l l' : HostLink} {o : Outgoing} {e : SdkError} : l.reserved = none → l.send o = (l', .error e) →
      Step l (.refused e) l'
  | reserve {l l' : HostLink} {call id : Nat} {o : Outgoing} : l.reserved = none → l.reserve call o = (l', .ok id) →
      Step l (.reserved call id) l'
  | reserveFailed {l l' : HostLink} {call : Nat} {o : Outgoing} {e : SdkError} : l.reserved = none →
      l.reserve call o = (l', .error e) → Step l (.refused e) l'
  | commit {l : HostLink} {r : Reservation} : l.reserved = some r → l.closed = false → l.HasRoom →
      Step l (.committed r.call (l.identity.stamp r.id r.outgoing)) (l.commit r)
  | release {l : HostLink} {r : Reservation} : l.reserved = some r → Step l (.released r.call r.id) (l.release r)
  | burn {l : HostLink} : l.reserved = none → Step l .burned l.burn
  | consume {l : HostLink} : l.closed = false → l.consumed < l.wire.length →
      Step l .consumed { l with consumed := l.consumed + 1 }
  | close {l : HostLink} : Step l .closed { l with closed := true }
  | route {l l' : HostLink} {replyTo : Nat} {trace : TraceContext} {result : Except SdkError Nat} :
      l.route replyTo trace = (l', result) → Step l (.routed replyTo result) l'

section Allocated

variable {l : HostLink} {o : Outgoing} {id : Nat} {sender : SenderState} (ha : l.sender.allocate = .ok (id, sender))
include ha

private theorem send_of_open (hclosed : l.closed = false) :
    l.send o = ({ l with sender, wire := l.wire ++ [l.identity.stamp id o] }, .ok (l.identity.stamp id o)) := by
  simp [send, ha, hclosed]

private theorem send_of_closed (hclosed : l.closed = true) : l.send o = ({ l with sender }, .error outputClosed) := by
  simp [send, ha, hclosed]

private theorem reserve_of_register {call : Nat} {pending : Pending}
    (hr : HostClient.register l.pending id ⟨o.trace, call⟩ = .ok pending) :
    l.reserve call o = ({ l with sender, pending, reserved := some ⟨call, id, o⟩ }, .ok id) := by
  simp [reserve, ha, hr]

private theorem reserve_of_registerFailed {call : Nat} {e : SdkError}
    (hr : HostClient.register l.pending id ⟨o.trace, call⟩ = .error e) :
    l.reserve call o = ({ l with sender }, .error e) := by
  simp [reserve, ha, hr]

theorem burn_of_allocate : l.burn = { l with sender } := by
  simp [burn, ha]

end Allocated

/-! ### What the operations keep -/

/-- The channel is within its bound, the IDs on it increase, an ID that is reserved is larger, and each waiter waits
for the reply to a request that holds the lock or that is on the wire with the trace that the waiter expects. -/
structure Sound (l : HostLink) : Prop where
  consumed : l.consumed ≤ l.wire.length
  room : l.wire.length ≤ l.consumed + l.capacity
  increasing : (l.wire.map (·.messageId)).Pairwise (· < ·)
  lt : ∀ env ∈ l.wire, env.messageId < l.sender.nextMessageId
  reserved : ∀ r, l.reserved = some r → r.id < l.sender.nextMessageId ∧ ∀ env ∈ l.wire, env.messageId < r.id
  pending : ∀ k w, l.pending.lookup k = some w →
    (∃ r, l.reserved = some r ∧ r.id = k ∧ r.call = w.response ∧ r.outgoing.trace = w.expectedTrace) ∨
      ∃ o, l.identity.stamp k o ∈ l.wire ∧ o.trace = w.expectedTrace

variable {l l' : HostLink}

private theorem allocate_le {sender sender' : SenderState} {id : Nat} (ha : sender.allocate = .ok (id, sender')) :
    sender.nextMessageId ≤ sender'.nextMessageId := by
  obtain ⟨-, hnext, -⟩ := SenderState.allocate_eq_ok.1 ha
  omega

theorem send_le (l : HostLink) (o : Outgoing) : l.sender.nextMessageId ≤ (l.send o).1.sender.nextMessageId := by
  unfold send
  split
  · exact le_rfl
  · rename_i ha
    split <;> exact allocate_le ha

theorem reserve_le (l : HostLink) (call : Nat) (o : Outgoing) :
    l.sender.nextMessageId ≤ (l.reserve call o).1.sender.nextMessageId := by
  unfold reserve
  split
  · exact le_rfl
  · rename_i ha
    split <;> exact allocate_le ha

theorem burn_le (l : HostLink) : l.sender.nextMessageId ≤ l.burn.sender.nextMessageId := by
  unfold burn
  split
  · exact le_rfl
  · rename_i ha
    exact allocate_le ha

/-- An ID that is skipped. -/
private theorem Sound.skip {n : Nat} (h : l.Sound) (hn : l.sender.nextMessageId ≤ n) :
    { l with sender := ⟨n⟩ }.Sound where
  consumed := h.consumed
  room := h.room
  increasing := h.increasing
  lt env henv := lt_of_lt_of_le (h.lt env henv) hn
  reserved r hr := ⟨lt_of_lt_of_le (h.reserved r hr).1 hn, (h.reserved r hr).2⟩
  pending := h.pending

/-- An envelope that is enqueued while nothing is reserved. -/
private theorem Sound.enqueue {o : Outgoing} {id n : Nat} (h : l.Sound) (hroom : l.HasRoom)
    (habove : ∀ env ∈ l.wire, env.messageId < id) (hn : id < n)
    (hpending : ∀ k w, l.pending.lookup k = some w →
      k = id ∧ o.trace = w.expectedTrace ∨ ∃ o, l.identity.stamp k o ∈ l.wire ∧ o.trace = w.expectedTrace) :
    { l with sender := ⟨n⟩, reserved := none, wire := l.wire ++ [l.identity.stamp id o] }.Sound where
  consumed := by
    rw [List.length_append]
    exact Nat.le_add_right_of_le h.consumed
  room := by
    have hconsumed := h.consumed
    unfold HasRoom at hroom
    rw [List.length_append, List.length_singleton]
    dsimp only
    omega
  increasing := by
    rw [List.map_append, List.pairwise_append]
    refine ⟨h.increasing, by simp, fun a ha b hb => ?_⟩
    obtain ⟨env, henv, rfl⟩ := List.mem_map.1 ha
    rw [List.map_singleton, List.mem_singleton] at hb
    exact hb ▸ habove env henv
  lt env henv := by
    rcases List.mem_append.1 henv with henv | henv
    · exact lt_trans (habove env henv) hn
    · rw [List.mem_singleton.1 henv]
      exact hn
  reserved r hr := by cases hr
  pending k w hk := by
    right
    rcases hpending k w hk with ⟨rfl, htrace⟩ | ⟨o', ho', htrace⟩
    · exact ⟨o, by simp, htrace⟩
    · exact ⟨o', List.mem_append_left _ ho', htrace⟩

/-- A waiter that is taken out, with the request that has registered it or after that request was enqueued. -/
private theorem Sound.erase {k : Nat} {reserved : Option Reservation} (h : l.Sound)
    (hreserved : reserved = l.reserved ∨ reserved = none ∧ ∀ r, l.reserved = some r → r.id = k) :
    { l with reserved, pending := l.pending.erase k }.Sound where
  consumed := h.consumed
  room := h.room
  increasing := h.increasing
  lt := h.lt
  reserved r hr := by
    rcases hreserved with rfl | ⟨rfl, -⟩
    · exact h.reserved r hr
    · cases hr
  pending k' w hk' := by
    have hne : k' ≠ k := by
      rintro rfl
      rw [AList.lookup_erase] at hk'
      cases hk'
    rw [AList.lookup_erase_ne hne] at hk'
    rcases h.pending k' w hk' with ⟨r, hr, hid, hrest⟩ | hwire
    · rcases hreserved with rfl | ⟨-, hr'⟩
      · exact Or.inl ⟨r, hr, hid, hrest⟩
      · exact absurd (hid.symm.trans (hr' r hr)) hne
    · exact Or.inr hwire

private theorem Step.sound {e : Event} (hs : Step l e l') (h : l.Sound) : l'.Sound := by
  have hwire : l.reserved = none → ∀ k w, l.pending.lookup k = some w →
      ∃ o, l.identity.stamp k o ∈ l.wire ∧ o.trace = w.expectedTrace := by
    intro hfree k w hk
    rcases h.pending k w hk with ⟨r, hr, -⟩ | hwire
    · rw [hfree] at hr
      cases hr
    · exact hwire
  cases hs with
  | @send _ o _ hfree hroom hsend =>
    obtain ⟨rfl, rfl⟩ := send_eq_ok hsend
    have hsound := h.enqueue (o := o) hroom h.lt (Nat.lt_succ_self _) fun k w hk => Or.inr (hwire hfree k w hk)
    rwa [← hfree] at hsound
  | @sendFailed _ o _ _ hsend =>
    rw [send_eq_error hsend]
    have hle := send_le l o
    rw [hsend] at hle
    exact h.skip hle
  | reserve hfree hreserve =>
    obtain ⟨rfl, rfl⟩ := reserve_eq_ok hreserve
    refine ⟨h.consumed, h.room, h.increasing, fun env henv => Nat.lt_succ_of_lt (h.lt env henv), fun r hr => ?_,
      fun k w hk => ?_⟩
    · cases hr
      exact ⟨Nat.lt_succ_self _, h.lt⟩
    · by_cases hid : k = l.sender.nextMessageId
      · subst hid
        rw [AList.lookup_insert] at hk
        cases hk
        exact Or.inl ⟨_, rfl, rfl, rfl, rfl⟩
      · rw [AList.lookup_insert_ne hid] at hk
        exact Or.inr (hwire hfree k w hk)
  | @reserveFailed _ call o _ _ hreserve =>
    rw [reserve_eq_error hreserve]
    have hle := reserve_le l call o
    rw [hreserve] at hle
    exact h.skip hle
  | @commit r hr _ hroom =>
    have hsound := h.enqueue (o := r.outgoing) hroom (h.reserved r hr).2 (h.reserved r hr).1 fun k w hk => ?_
    · exact hsound
    · rcases h.pending k w hk with ⟨r', hr', hid, -, htrace⟩ | hwire
      · rw [hr] at hr'
        cases hr'
        exact Or.inl ⟨hid.symm, htrace⟩
      · exact Or.inr hwire
  | release hr =>
    exact h.erase (Or.inr ⟨rfl, fun r' hr' => by rw [hr] at hr'; cases hr'; rfl⟩)
  | burn =>
    rw [burn_eq]
    exact h.skip l.burn_le
  | consume _ hlt =>
    refine ⟨hlt, ?_, h.increasing, h.lt, h.reserved, h.pending⟩
    have := h.room
    dsimp only
    omega
  | close => exact ⟨h.consumed, h.room, h.increasing, h.lt, h.reserved, h.pending⟩
  | route hroute =>
    rw [route_eq hroute]
    exact h.erase (Or.inl rfl)

private theorem Step.constant {e : Event} (hs : Step l e l') :
    l'.identity = l.identity ∧ l'.capacity = l.capacity := by
  cases hs with
  | send _ _ hsend => rw [(send_eq_ok hsend).2]; exact ⟨rfl, rfl⟩
  | sendFailed _ hsend => rw [send_eq_error hsend]; exact ⟨rfl, rfl⟩
  | reserve _ hreserve => rw [(reserve_eq_ok hreserve).2]; exact ⟨rfl, rfl⟩
  | reserveFailed _ hreserve => rw [reserve_eq_error hreserve]; exact ⟨rfl, rfl⟩
  | burn => rw [burn_eq]; exact ⟨rfl, rfl⟩
  | route hroute => rw [route_eq hroute]; exact ⟨rfl, rfl⟩
  | _ => exact ⟨rfl, rfl⟩

end HostLink

/-! ### The interleaved calls -/

def SendSpec.outgoing (spec : SendSpec) : Outgoing := ⟨spec.replyTo, spec.trace, spec.payload⟩

namespace Requests

variable {identity : SessionIdentity} {capacity : Nat} {h : List Event} {s s' : Requests}
  {c k : Nat} {spec : SendSpec}

def Event.shown : Event → Option Shown
  | .enqueued _ envelope => some (.enqueued envelope)
  | .routed reply (.ok c) => some (.delivered reply.replyTo c)
  | .consumed => some .consumed
  | .closed => some .closed
  | .routed _ (.error _) | .began _ _ | .allocated _ _ | .disarmed _ | .returned _ _ | .dropped _ => none

/-- The call that holds the sender lock, with the ID that it has been given. -/
def held (s : Requests) : Option (Nat × SendSpec × Nat) :=
  s.holder.bind fun c => (s.calls c).bind fun call =>
    match call.phase with
    | .sending id => some (c, call.spec, id)
    | _ => none

def linkWith (s : Requests) (sender : SenderState) (reserved : Option Reservation) : HostLink where
  identity := s.identity
  capacity := s.capacity
  sender := sender
  reserved := reserved
  pending := s.pending
  wire := s.wire
  consumed := s.consumed
  closed := s.closed

/-- The link as the other calls will find it.  A request takes its ID when it reserves it, and any other envelope
takes its ID when it is enqueued. -/
def link (s : Requests) : HostLink :=
  match s.held with
  | none => s.linkWith s.sender none
  | some (c, spec, id) =>
    if spec.registered then s.linkWith s.sender (some ⟨c, id, spec.outgoing⟩) else s.linkWith ⟨id⟩ none

/-- What the lock guarantees. -/
structure Serialized (s : Requests) : Prop where
  ordered : s.Ordered
  bounded : s.sender.nextMessageId < 2 ^ 64

private theorem Step.serialized {e : Event} (hs : Step s e s') (hi : s.Serialized) : s'.Serialized := by
  refine ⟨hs.ordered hi.ordered, ?_⟩
  have hbounded := hi.bounded
  cases hs with
  | allocate _ _ ha | register _ _ ha | registerFailed _ _ ha =>
    obtain ⟨-, hnext, hlt⟩ := SenderState.allocate_eq_ok.1 ha
    dsimp only
    omega
  | _ => exact hbounded

private theorem serialized_init : (init identity capacity).Serialized := ⟨ordered .nil, by simp [init]⟩

private theorem held_of_free (hfree : s.holder = none) : s.held = none := by
  simp [held, hfree]

private theorem held_of_sending (ho : s.Ordered) (hc : s.calls c = some ⟨spec, .sending k⟩) :
    s.held = some (c, spec, k) := by
  simp [held, ho.holder ⟨spec, hc⟩, hc]

private theorem link_of_free (hfree : s.holder = none) : s.link = s.linkWith s.sender none := by
  rw [link, held_of_free hfree]

private theorem link_of_plain (ho : s.Ordered) (hc : s.calls c = some ⟨spec, .sending k⟩)
    (hspec : spec.registered = false) : s.link = s.linkWith ⟨k⟩ none := by
  simp [link, held_of_sending ho hc, hspec]

private theorem link_of_registered (ho : s.Ordered) (hc : s.calls c = some ⟨spec, .sending k⟩)
    (hspec : spec.registered = true) : s.link = s.linkWith s.sender (some ⟨c, k, spec.outgoing⟩) := by
  simp [link, held_of_sending ho hc, hspec]

private theorem link_of_held (hheld : s'.held = s.held) (hsender : s'.sender = s.sender) :
    s'.link = s'.linkWith s.link.sender s.link.reserved := by
  unfold link
  rw [hheld, hsender]
  rcases s.held with _ | ⟨c, spec, id⟩
  · rfl
  · dsimp only
    split <;> rfl

/-- A step that does not depend on the lock. -/
private theorem link_step {d : HostLink.Event} (hheld : s'.held = s.held) (hsender : s'.sender = s.sender)
    (hs : ∀ sender reserved, HostLink.Step (s.linkWith sender reserved) d (s'.linkWith sender reserved)) :
    HostLink.Step s.link d s'.link := by
  have hstep := hs s.link.sender s.link.reserved
  rwa [← link_of_held rfl rfl, ← link_of_held hheld hsender] at hstep

/-- A call that neither takes the lock nor lets go of it does nothing to the link. -/
private theorem link_setPhase {phase : Phase} (hidle : ∀ k, ¬ s.Sending c k) (hphase : ∀ k, phase ≠ .sending k) :
    (s.setPhase c spec phase).link = s.link := by
  have hheld : (s.setPhase c spec phase).held = s.held := by
    cases hholder : s.holder with
    | none => rw [held_of_free hholder, held_of_free (show (s.setPhase c spec phase).holder = none from hholder)]
    | some c' =>
      by_cases hc : c' = c
      · subst hc
        simp only [held, setPhase, hholder, Option.bind_some, Function.update_self]
        cases hcall : s.calls c' with
        | none => cases phase <;> simp_all
        | some call =>
          obtain ⟨spec', phase'⟩ := call
          have : ∀ k, phase' ≠ .sending k := fun k hk => hidle k ⟨spec', hk ▸ hcall⟩
          cases phase <;> cases phase' <;> simp_all
      · simp only [held, setPhase, hholder, Option.bind_some, Function.update_of_ne hc]
  simp only [link, hheld]
  rfl

private theorem not_sending
    (hc : s.calls c = none ∨ ∃ spec phase, s.calls c = some ⟨spec, phase⟩ ∧ ∀ k, phase ≠ .sending k) :
    ∀ k, ¬ s.Sending c k := by
  rintro k ⟨spec, h⟩
  rcases hc with hc | ⟨spec', phase, hc, hphase⟩
  · rw [hc] at h
    cases h
  · rw [hc] at h
    cases h
    exact hphase k rfl

/-- The ID of the call that holds the lock is the last that was allocated. -/
theorem allocate_held (hi : s.Serialized) (hc : s.calls c = some ⟨spec, .sending k⟩) :
    SenderState.allocate ⟨k⟩ = .ok (k, s.sender) := by
  have hnext := hi.ordered.next ⟨spec, hc⟩
  exact SenderState.allocate_eq_ok.2 ⟨rfl, hnext.symm, hnext ▸ hi.bounded⟩

theorem setPhase_self (s : Requests) (c : Nat) (spec : SendSpec) (phase : Phase) :
    (s.setPhase c spec phase).calls c = some ⟨spec, phase⟩ := Function.update_self ..

private theorem simulates {e : Event} (hi : s.Serialized) (hs : Step s e s') :
    ∃ l, Steps HostLink.Step s.link l s'.link ∧ l.filterMap HostLink.Event.shown = e.shown.toList := by
  have ho := hi.ordered
  have ho' := (hs.serialized hi).ordered
  cases hs with
  | begin hc => exact Refines.simulates_stutter (link_setPhase (not_sending (Or.inl hc)) (by simp)) rfl
  | exhausted hc | disarm hc | receive hc | receiveFailed hc | dropLocking hc | dropWaiting hc =>
    exact Refines.simulates_stutter (link_setPhase (not_sending (Or.inr ⟨_, _, hc, by simp⟩)) (by simp)) rfl
  | allocate _ hfree ha hspec =>
    -- the ID is taken when the envelope is enqueued
    obtain ⟨rfl, -, -⟩ := SenderState.allocate_eq_ok.1 ha
    refine Refines.simulates_stutter ?_ rfl
    rw [link_of_free hfree, link_of_plain ho' (setPhase_self ..) hspec]
    rfl
  | @register c id spec _ _ _ hfree ha hspec hr =>
    refine Refines.simulates_step (d := .reserved c id) ?_ rfl
    rw [link_of_free hfree, link_of_registered ho' (setPhase_self ..) hspec]
    exact .reserve rfl (HostLink.reserve_of_register (o := spec.outgoing) ha hr)
  | @registerFailed _ _ spec _ e _ hfree ha hspec hr =>
    refine Refines.simulates_step (d := .refused e) ?_ rfl
    rw [link_of_free hfree, link_of_free (by exact hfree)]
    exact .reserveFailed rfl (HostLink.reserve_of_registerFailed (o := spec.outgoing) ha hr)
  | @enqueue c id spec hc hclosed hroom =>
    by_cases hspec : spec.registered
    · refine Refines.simulates_step (d := .committed c (s.identity.stamp id spec.outgoing)) ?_ rfl
      rw [link_of_registered ho hc hspec, link_of_free rfl]
      exact HostLink.Step.commit (l := s.linkWith s.sender (some ⟨c, id, spec.outgoing⟩)) rfl hclosed hroom
    · rw [Bool.not_eq_true] at hspec
      refine Refines.simulates_step (d := .sent (s.identity.stamp id spec.outgoing)) ?_ rfl
      rw [link_of_plain ho hc hspec, link_of_free rfl]
      have hsend := HostLink.send_of_open (l := s.linkWith ⟨id⟩ none) (o := spec.outgoing)
        (allocate_held hi hc) hclosed
      exact .send rfl hroom hsend
  | @sendFailed c id spec hc hclosed =>
    by_cases hspec : spec.registered
    · refine Refines.simulates_step (d := .released c id) ?_ rfl
      rw [link_of_registered ho hc hspec, link_of_free rfl, release, if_pos hspec]
      exact HostLink.Step.release (l := s.linkWith s.sender (some ⟨c, id, spec.outgoing⟩)) rfl
    · refine Refines.simulates_step (d := .refused outputClosed) ?_ rfl
      rw [link_of_plain ho hc (Bool.not_eq_true _ ▸ hspec), link_of_free rfl, release, if_neg hspec]
      have hsend := HostLink.send_of_closed (l := s.linkWith ⟨id⟩ none) (o := spec.outgoing)
        (allocate_held hi hc) hclosed
      exact .sendFailed rfl hsend
  | @dropSending c id spec hc =>
    by_cases hspec : spec.registered
    · refine Refines.simulates_step (d := .released c id) ?_ rfl
      rw [link_of_registered ho hc hspec, link_of_free rfl, release, if_pos hspec]
      exact HostLink.Step.release (l := s.linkWith s.sender (some ⟨c, id, spec.outgoing⟩)) rfl
    · refine Refines.simulates_step (d := .burned) ?_ rfl
      rw [link_of_plain ho hc (Bool.not_eq_true _ ▸ hspec), link_of_free rfl, release, if_neg hspec]
      have hburn := HostLink.Step.burn (l := s.linkWith ⟨id⟩ none) rfl
      rw [HostLink.burn_of_allocate (allocate_held hi hc)] at hburn
      exact hburn
  | consume hclosed hlt =>
    refine Refines.simulates_step (d := .consumed) (link_step rfl rfl fun sender reserved => ?_) rfl
    exact HostLink.Step.consume (l := s.linkWith sender reserved) hclosed hlt
  | close =>
    refine Refines.simulates_step (d := .closed) (link_step rfl rfl fun sender reserved => ?_) rfl
    exact HostLink.Step.close (l := s.linkWith sender reserved)
  | @route reply trace c _ hroute =>
    refine Refines.simulates_step (d := .routed reply.replyTo (.ok c))
      (link_step rfl rfl fun sender reserved => ?_) rfl
    refine @HostLink.Step.route _ _ _ reply.trace _ ?_
    exact Prod.ext rfl (congrArg (Except.map PendingResponse.response) hroute)
  | @routeFailed reply e _ hroute =>
    refine Refines.simulates_step (d := .routed reply.replyTo (.error e))
      (link_step rfl rfl fun sender reserved => ?_) rfl
    refine @HostLink.Step.route _ _ _ reply.trace _ ?_
    exact Prod.ext rfl (congrArg (Except.map PendingResponse.response) hroute)

private theorem refines_link : Refines Step HostLink.Step Serialized link Event.shown HostLink.Event.shown where
  keeps hi hs := hs.serialized hi
  simulates := simulates

/-- However the calls are interleaved, what they show is shown by a run of atomic operations that leads to the same
channel and to the same routing table.  The IDs are the same as well, except that an envelope which waits for channel
capacity takes its ID in the atomic run when it is enqueued; a request takes it when its waiter is registered. -/
theorem linearized (hr : Steps Step (init identity capacity) h s) :
    ∃ l, Steps HostLink.Step (HostLink.init identity capacity) l s.link ∧
      l.filterMap HostLink.Event.shown = h.filterMap Event.shown ∧
      s.link.wire = s.wire ∧ s.link.consumed = s.consumed ∧ s.link.closed = s.closed ∧ s.link.pending = s.pending ∧
      (s.holder = none → s.link.sender = s.sender ∧ s.link.reserved = none) ∧
      ∀ c spec k, s.calls c = some ⟨spec, .sending k⟩ →
        if spec.registered then s.link.sender = s.sender ∧ s.link.reserved = some ⟨c, k, spec.outgoing⟩
        else s.link.sender = ⟨k⟩ ∧ s.link.reserved = none := by
  obtain ⟨l, hl, hshown⟩ := refines_link.run serialized_init hr
  refine ⟨l, ?_, hshown, ?_⟩
  · rwa [link_of_free rfl] at hl
  have hkeep := @link_of_held s s rfl rfl
  refine ⟨by rw [hkeep]; rfl, by rw [hkeep]; rfl, by rw [hkeep]; rfl, by rw [hkeep]; rfl, fun hfree => ?_,
    fun c spec k hc => ?_⟩
  · rw [link_of_free hfree]
    exact ⟨rfl, rfl⟩
  · split
    · rename_i hspec
      rw [link_of_registered (ordered hr) hc hspec]
      exact ⟨rfl, rfl⟩
    · rename_i hspec
      rw [link_of_plain (ordered hr) hc (Bool.not_eq_true _ ▸ hspec)]
      exact ⟨rfl, rfl⟩

private def turnTrace : TraceContext := ⟨"correlation", none, 0, 0, none, none⟩

private def turnHeartbeat : SendSpec := ⟨none, turnTrace, .heartbeat ⟨7⟩, false⟩

private def turnCall : SendSpec := ⟨none, turnTrace, .hostCall ⟨none⟩, true⟩

private def turnIdentity : SessionIdentity := ⟨"session", "instance"⟩

/-- Two calls in turns: the second begins while the first waits for channel capacity. -/
private def turns : List Event :=
  [.began 0 turnHeartbeat, .allocated 0 1, .began 1 turnCall,
    .enqueued 0 (turnIdentity.stamp 1 turnHeartbeat.outgoing), .allocated 1 2, .consumed,
    .enqueued 1 (turnIdentity.stamp 2 turnCall.outgoing)]

theorem linearized_turns : ∃ l r, Steps HostLink.Step (HostLink.init turnIdentity 1) l r ∧
    l.filterMap HostLink.Event.shown =
      [.enqueued (turnIdentity.stamp 1 turnHeartbeat.outgoing), .consumed,
        .enqueued (turnIdentity.stamp 2 turnCall.outgoing)] ∧ r.sender = ⟨3⟩ ∧ (r.pending.lookup 2).isSome := by
  obtain ⟨s, hr, hholder, hsender, hpending⟩ : ∃ s, Steps Step (init turnIdentity 1) turns s ∧ s.holder = none ∧
      s.sender = ⟨3⟩ ∧ (s.pending.lookup 2).isSome := by
    refine Steps.exists_cons_and (.begin rfl) ?_
    refine Steps.exists_cons_and (.allocate rfl rfl rfl rfl) ?_
    refine Steps.exists_cons_and (.begin rfl) ?_
    refine Steps.exists_cons_and (.enqueue rfl rfl Nat.zero_lt_one) ?_
    refine Steps.exists_cons_and (.register rfl rfl rfl rfl rfl) ?_
    refine Steps.exists_cons_and (.consume rfl Nat.zero_lt_one) ?_
    exact ⟨_, .single (.enqueue rfl rfl Nat.zero_lt_one), rfl, rfl, rfl⟩
  obtain ⟨l, hl, hshown, -, -, -, heq, hfree, -⟩ := linearized hr
  exact ⟨l, _, hl, hshown, (hfree hholder).1.trans hsender, heq ▸ hpending⟩

end Requests

/-! ### The session -/

def ServeEvent.shown : ServeEvent → Option Shown
  | .sent envelope | .emitted _ _ envelope => some (.enqueued envelope)
  | .received envelope (some call) => envelope.replyTo.map (.delivered · call)
  | .consumed => some .consumed
  | .closed => some .closed
  | _ => none

namespace Serve

variable {s s' : Serve} {e : ServeEvent}

/-- Taking an envelope leaves the link alone, or routes a reply.  The loop fails with the router. -/
theorem process_routes (s : Serve) (envelope : PluginEnvelope) :
    (s.process envelope).1.link = s.link ∧ (s.process envelope).2 = none ∨
      ∃ replyTo trace payload result, envelope.replyTo = some replyTo ∧ envelope.payload = some payload ∧
        s.link.route replyTo trace = ((s.process envelope).1.link, result) ∧
        (s.process envelope).2 = result.toOption ∧
        ∀ e, result = .error e → (s.process envelope).1.loop = .returned (.error e) := by
  unfold process
  cases validateEnvelope envelope s.session with
  | error e => exact Or.inl ⟨rfl, rfl⟩
  | ok r =>
    obtain ⟨trace, session⟩ := r
    cases envelope.replyTo with
    | none =>
      refine Or.inl ⟨?_, rfl⟩
      dsimp only [request]
      repeat' split
      all_goals rfl
    | some replyTo =>
      dsimp only [reply]
      split
      · exact Or.inl ⟨rfl, rfl⟩
      · rename_i payload hpayload
        split
        · exact Or.inl ⟨rfl, rfl⟩
        · right
          refine ⟨replyTo, trace, payload, (s.link.route replyTo trace).2, rfl, hpayload, ?_⟩
          split
          · rename_i hroute
            rw [hroute]
            exact ⟨rfl, rfl, fun e he => by cases he; rfl⟩
          · rename_i hroute
            rw [hroute]
            exact ⟨rfl, rfl, fun e he => by cases he⟩

private theorem simulates (hs : Step s e s') :
    ∃ l, Steps HostLink.Step s.link l s'.link ∧ l.filterMap HostLink.Event.shown = e.shown.toList := by
  cases hs with
  | task hs => exact Refines.simulates_stutter hs.link (by cases hs <;> rfl)
  | context hs =>
    cases hs with
    | internal => exact Refines.simulates_stutter rfl rfl
    | emit _ hfree hroom hsend => exact Refines.simulates_step (.send hfree hroom hsend) rfl
    | emitFailed _ hfree hsend => exact Refines.simulates_step (.sendFailed hfree hsend) rfl
    | reserve _ hfree hreserve => exact Refines.simulates_step (.reserve hfree hreserve) rfl
    | reserveFailed _ hfree hreserve => exact Refines.simulates_step (.reserveFailed hfree hreserve) rfl
    | commit _ hr hclosed hroom => exact Refines.simulates_step (.commit hr hclosed hroom) rfl
    | commitFailed _ hr => exact Refines.simulates_step (.release hr) rfl
    | release hr => exact Refines.simulates_step (.release hr) rfl
    | burn hfree => exact Refines.simulates_step (.burn hfree) rfl
    | consume hclosed hlt => exact Refines.simulates_step (.consume hclosed hlt) rfl
    | close => exact Refines.simulates_step .close rfl
  | loop hs =>
    cases hs with
    | @receive envelope =>
      rcases process_routes s envelope with ⟨hlink, hcall⟩ | ⟨replyTo, trace, -, result, hreply, -, hroute, hcall, -⟩
      · exact Refines.simulates_stutter hlink (by rw [hcall]; rfl)
      · refine Refines.simulates_step (.route hroute) ?_
        rw [hcall]
        cases result with
        | error e => rfl
        | ok call => simp [HostLink.Event.shown, ServeEvent.shown, Except.toOption, hreply]
    | send _ hfree hroom hsend => exact Refines.simulates_step (.send hfree hroom hsend) rfl
    | sendFailed _ hfree hsend => exact Refines.simulates_step (.sendFailed hfree hsend) rfl
    | acknowledge _ hfree hroom hsend => exact Refines.simulates_step (.send hfree hroom hsend) rfl
    | acknowledgeFailed _ hfree hsend => exact Refines.simulates_step (.sendFailed hfree hsend) rfl
    | _ => exact Refines.simulates_stutter rfl rfl

private theorem refines_link : Refines Step HostLink.Step (fun _ => True) Serve.link ServeEvent.shown
    HostLink.Event.shown where
  keeps _ _ := trivial
  simulates _ := simulates

private theorem init_sound (setup : Setup) : (init setup).link.Sound := by
  rw [init_link]
  constructor <;> simp [SessionIdentity.stamp, SessionIdentity.envelope, outgoingCapacity]

end Serve

namespace Session

variable {platform : Platform} {setup : Setup} {h : List ServeEvent} {x : Session}

theorem refines_link : Refines (Step platform) HostLink.Step (fun _ => True) (Serve.link ∘ serve) ServeEvent.shown
    HostLink.Event.shown := by
  refine Refines.comp (Q := Serve.Step) ⟨fun _ _ => trivial, fun _ hs => ?_⟩ Serve.refines_link fun _ _ => trivial
  exact Refines.simulates_step hs.serve rfl

theorem link_sound (hr : Steps (Step platform) (init setup) h x) : x.serve.link.Sound :=
  refines_link.invariant (fun _ _ _ hs hsound => hs.sound hsound) trivial hr (Serve.init_sound setup)

theorem link_capacity (hr : Steps (Step platform) (init setup) h x) : x.serve.link.capacity = outgoingCapacity :=
  refines_link.invariant (J := fun l => l.capacity = outgoingCapacity)
    (fun _ _ _ hs hl => hs.constant.2.trans hl) trivial hr rfl

/-- The output channel of a session is never fuller than its bound, and each waiter in the routing table waits for
the reply to a request that is being enqueued, or that has been enqueued with the trace that the waiter expects. -/
theorem channel_sound (hr : Steps (Step platform) (init setup) h x) :
    x.serve.link.wire.length - x.serve.link.consumed ≤ outgoingCapacity ∧
      ∀ k w, x.serve.link.pending.lookup k = some w →
        (∃ r, x.serve.link.reserved = some r ∧ r.id = k ∧ r.call = w.response ∧ r.outgoing.trace = w.expectedTrace) ∨
          ∃ env ∈ x.serve.link.wire, env.messageId = k ∧ env.trace = some w.expectedTrace := by
  have hsound : x.serve.link.Sound := link_sound hr
  have hcapacity : x.serve.link.capacity = outgoingCapacity := link_capacity hr
  refine ⟨?_, fun k w hk => ?_⟩
  · have hroom := hsound.room
    rw [hcapacity] at hroom
    omega
  · rcases hsound.pending k w hk with hreserved | ⟨o, ho, htrace⟩
    · exact Or.inl hreserved
    · exact Or.inr ⟨_, ho, rfl, congrArg some htrace⟩

/-- The waiter of the host call is in the table, and its request is on the wire. -/
theorem channel_sound_sampleCalled : ∃ u w, Steps (Step samplePlatform) (init Serve.sampleSetup)
      (sampleCalling ++ [ServeEvent.emitted sampleAction 0 (sampleCalled sampleCall)]) u ∧
    u.serve.link.pending.lookup 4 = some w ∧
    ∃ env ∈ u.serve.link.wire, env.messageId = 4 ∧ env.trace = some w.expectedTrace := by
  obtain ⟨u, -, hu, -, -, -, -, hfree, hlookup⟩ := @sampleCalled_steps sampleCall .getConfig rfl
  refine ⟨u, _, hu, hlookup, ?_⟩
  rcases (channel_sound hu).2 4 _ hlookup with ⟨r, hr, -⟩ | hwire
  · cases hfree.symm.trans hr
  · exact hwire

end Session

end PluginSdk
