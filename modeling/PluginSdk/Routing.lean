import PluginSdk.Journey

/-!
# Routing of replies

The routing table agrees with the wire: as long as the host replies only to what it has taken from the wire, an entry
is there exactly while its request is being enqueued or is on the wire without a reply (`Requests.routing_agrees`).
Whatever the host replies, a call gets the payload of the one reply to its own request, with its own trace
(`Requests.responses_not_crossed`).
-/

namespace PluginSdk

open Lts

namespace Requests

variable {identity : SessionIdentity} {capacity : Nat} {h : List Event} {s : Requests}

/-- The envelope that an event puts on the wire. -/
def Event.envelope : Event → Option PluginEnvelope
  | .enqueued _ envelope => some envelope
  | _ => none

private theorem wire_eq (hr : Steps Step (init identity capacity) h s) : s.wire = h.filterMap Event.envelope := by
  refine Steps.history (I := fun h s => s.wire = h.filterMap Event.envelope) rfl (fun h t e t' _ hs ht => ?_) hr
  rw [List.filterMap_append, ← ht]
  cases hs <;> simp [Event.envelope, setPhase, release]

theorem mem_wire (hr : Steps Step (init identity capacity) h s) {env : PluginEnvelope} :
    env ∈ s.wire ↔ ∃ c, .enqueued c env ∈ h := by
  rw [wire_eq hr, List.mem_filterMap]
  constructor
  · rintro ⟨e, he, henv⟩
    cases e <;> cases henv
    exact ⟨_, he⟩
  · rintro ⟨c, he⟩
    exact ⟨_, he, rfl⟩

/-! ### What a journey says about its call -/

private theorem Journey.enqueued {c : Nat} {l : List Event} {p : Option RequestCall} (hj : Journey identity c l p)
    {env : PluginEnvelope} (he : .enqueued c env ∈ l) :
    ∃ spec, .began c spec ∈ l ∧ .allocated c env.messageId ∈ l ∧
      env = identity.envelope env.messageId spec.replyTo spec.trace spec.payload := by
  cases hj <;> simp at he
  all_goals
    subst he
    exact ⟨_, List.mem_cons_self, by simp [SessionIdentity.envelope], rfl⟩

private theorem Journey.began {c : Nat} {l : List Event} {p : Option RequestCall} (hj : Journey identity c l p)
    {spec spec' : SendSpec} (h₁ : .began c spec ∈ l) (h₂ : .began c spec' ∈ l) : spec = spec' := by
  cases hj <;> simp at h₁ h₂
  all_goals rw [h₁, h₂]

private theorem Journey.allocated {c k k' : Nat} {l : List Event} {p : Option RequestCall}
    (hj : Journey identity c l p) (h₁ : .allocated c k ∈ l) (h₂ : .allocated c k' ∈ l) : k = k' := by
  cases hj <;> simp at h₁ h₂
  all_goals rw [h₁, h₂]

private theorem Journey.waiterOf_eq_some {c k : Nat} {t : TraceContext} {l : List Event} {p : Option RequestCall}
    (hj : Journey identity c l p) : waiterOf l = some (k, t) ↔
      ∃ spec, .began c spec ∈ l ∧ spec.registered = true ∧ spec.trace = t ∧ .allocated c k ∈ l ∧
        (p = some ⟨spec, .sending k⟩ ∨ ∃ env, .enqueued c env ∈ l) := by
  cases hj <;> simp_all [waiterOf]
  all_goals grind

private theorem began_unique (hr : Steps Step (init identity capacity) h s) {c : Nat} {spec spec' : SendSpec}
    (h₁ : .began c spec ∈ h) (h₂ : .began c spec' ∈ h) : spec = spec' :=
  ((journey hr).2 c).began (mem_own.2 ⟨h₁, rfl⟩) (mem_own.2 ⟨h₂, rfl⟩)

private theorem allocated_unique (hr : Steps Step (init identity capacity) h s) {c k k' : Nat}
    (h₁ : .allocated c k ∈ h) (h₂ : .allocated c k' ∈ h) : k = k' :=
  ((journey hr).2 c).allocated (mem_own.2 ⟨h₁, rfl⟩) (mem_own.2 ⟨h₂, rfl⟩)

/-- What is on the wire was put there by a call under the ID that it had allocated. -/
theorem enqueued_inv (hr : Steps Step (init identity capacity) h s) {c : Nat} {env : PluginEnvelope}
    (he : .enqueued c env ∈ h) : ∃ spec, .began c spec ∈ h ∧ .allocated c env.messageId ∈ h ∧
      env = identity.envelope env.messageId spec.replyTo spec.trace spec.payload := by
  obtain ⟨spec, hb, ha, henv⟩ := ((journey hr).2 c).enqueued (mem_own.2 ⟨he, rfl⟩)
  exact ⟨spec, (mem_own.1 hb).1, (mem_own.1 ha).1, henv⟩

private theorem waiterOf_own (hr : Steps Step (init identity capacity) h s) {c k : Nat} {t : TraceContext} :
    waiterOf (own c h) = some (k, t) ↔ ∃ spec, .began c spec ∈ h ∧ spec.registered = true ∧ spec.trace = t ∧
      .allocated c k ∈ h ∧ (s.calls c = some ⟨spec, .sending k⟩ ∨ ∃ env, .enqueued c env ∈ h) := by
  rw [((journey hr).2 c).waiterOf_eq_some]
  simp [mem_own, Event.call]

/-- A call that waits for channel capacity has done nothing but allocate its ID. -/
private theorem mem_iff_of_sending (hr : Steps Step (init identity capacity) h s) {c k : Nat} {spec : SendSpec}
    (hc : s.calls c = some ⟨spec, .sending k⟩) {e : Event} (he : e.call = some c) :
    e ∈ h ↔ e = .began c spec ∨ e = .allocated c k := by
  have hj := (journey hr).2 c
  rw [hc] at hj
  have hmem : e ∈ h ↔ e ∈ own c h := by simp [mem_own, he]
  rw [hmem]
  generalize own c h = l at hj
  cases hj
  simp

/-- Two calls never have a waiter under the same ID. -/
private theorem waiterOf_inj (hr : Steps Step (init identity capacity) h s) {c c' k : Nat} {t t' : TraceContext}
    (h₁ : waiterOf (own c h) = some (k, t)) (h₂ : waiterOf (own c' h) = some (k, t')) : c = c' := by
  obtain ⟨-, -, -, -, ha, -⟩ := (waiterOf_own hr).1 h₁
  obtain ⟨-, -, -, -, ha', -⟩ := (waiterOf_own hr).1 h₂
  exact (numbered hr).inj ha ha'

/-! ### The routing table and the wire -/

/-- A reply to the ID was handed to the router, whatever came of it. -/
def RoutedTo (h : List Event) (k : Nat) : Prop := ∃ reply res, .routed reply res ∈ h ∧ reply.replyTo = k

/-- A reply to the ID was handed to the router after the ID had been allocated. -/
def Taken (h : List Event) (k : Nat) : Prop :=
  ∃ h₁ h₂ reply res c, h = h₁ ++ Event.routed reply res :: h₂ ∧ reply.replyTo = k ∧ .allocated c k ∈ h₁

/-- The request of the call was put on the wire under the ID. -/
def RequestSent (h : List Event) (c k : Nat) (spec : SendSpec) : Prop :=
  .began c spec ∈ h ∧ spec.registered = true ∧ ∃ env, .enqueued c env ∈ h ∧ env.messageId = k

private theorem Taken.allocated {k : Nat} (hk : Taken h k) : ∃ c, .allocated c k ∈ h := by
  obtain ⟨h₁, h₂, reply, res, c, rfl, -, ha⟩ := hk
  exact ⟨c, List.mem_append_left _ ha⟩

private theorem taken_snoc {e : Event} {k : Nat} : Taken (h ++ [e]) k ↔
    Taken h k ∨ ∃ reply res c, e = .routed reply res ∧ reply.replyTo = k ∧ .allocated c k ∈ h := by
  constructor
  · rintro ⟨h₁, h₂, reply, res, c, he, hk, ha⟩
    rcases List.eq_nil_or_concat' h₂ with rfl | ⟨h₂, e', rfl⟩
    · obtain ⟨rfl, he'⟩ := List.append_inj' he rfl
      exact Or.inr ⟨reply, res, c, List.singleton_inj.1 he', hk, ha⟩
    · rw [← List.cons_append, ← List.append_assoc] at he
      obtain ⟨rfl, -⟩ := List.append_inj' he rfl
      exact Or.inl ⟨h₁, h₂, reply, res, c, rfl, hk, ha⟩
  · rintro (⟨h₁, h₂, reply, res, c, rfl, hk, ha⟩ | ⟨reply, res, c, rfl, hk, ha⟩)
    · exact ⟨h₁, h₂ ++ [e], reply, res, c, by simp, hk, ha⟩
    · exact ⟨h, [], reply, res, c, rfl, hk, ha⟩

private theorem taken_snoc_of_ne {e : Event} {k : Nat} (he : ∀ reply res, e ≠ .routed reply res) :
    Taken (h ++ [e]) k ↔ Taken h k := by
  rw [taken_snoc]
  exact or_iff_left fun ⟨reply, res, _, her, _⟩ => he reply res her

/-- The entries of the routing table are the waiters that no reply has taken out. -/
theorem lookup_iff (hr : Steps Step (init identity capacity) h s) {k c : Nat} {t : TraceContext} :
    s.pending.lookup k = some ⟨t, c⟩ ↔ waiterOf (own c h) = some (k, t) ∧ ¬ Taken h k := by
  refine Steps.history (I := fun h s => ∀ k c t, s.pending.lookup k = some ⟨t, c⟩ ↔
    waiterOf (own c h) = some (k, t) ∧ ¬ Taken h k) (fun k c t => ?_) (fun h s e s' hr hs ht => ?_) hr k c t
  · simp [init, waiterOf]
  have hr' : Steps Step (init identity capacity) (h ++ [e]) s' := hr.snoc hs
  obtain ⟨hid, hj⟩ := journey hr
  intro k c t
  cases hs.table (hid ▸ hj) with
  | keep hp he hw =>
    rw [hp, hw, taken_snoc_of_ne he]
    exact ht k c t
  | register c' t' he hp hw =>
    rw [hp, taken_snoc_of_ne (by simp [he])]
    by_cases hk : k = s.sender.nextMessageId
    · subst hk
      rw [AList.lookup_insert]
      constructor
      · intro hl
        cases hl
        refine ⟨hw, fun htaken => ?_⟩
        obtain ⟨c'', ha⟩ := htaken.allocated
        exact lt_irrefl _ ((numbered hr).lt ha)
      · rintro ⟨hwc, -⟩
        obtain rfl := waiterOf_inj hr' hwc hw
        rw [hw] at hwc
        cases hwc
        rfl
    · rw [AList.lookup_insert_ne hk, ht]
      by_cases hc : c = c'
      · subst hc
        constructor
        · rintro ⟨hwc, -⟩
          obtain ⟨-, -, -, -, ha, -⟩ := (waiterOf_own hr).1 hwc
          exact absurd (allocated_unique hr' (List.mem_append_left _ ha) (by simp [he])) hk
        · rintro ⟨hwc, -⟩
          rw [hw] at hwc
          cases hwc
          exact absurd rfl hk
      · rw [own_snoc_other (by simp [he, Event.call, Ne.symm hc])]
  | release c' k' t' he hw hp hw' =>
    have hother : ∀ c, c ≠ c' → own c (h ++ [e]) = own c h := fun c hc =>
      own_snoc_other (by simp [he, Ne.symm hc]) h
    rw [hp, taken_snoc_of_ne fun reply res her => by rw [her] at he; cases he]
    by_cases hk : k = k'
    · subst hk
      rw [AList.lookup_erase]
      constructor
      · intro hl
        cases hl
      · rintro ⟨hwc, -⟩
        by_cases hc : c = c'
        · rw [hc, hw'] at hwc
          cases hwc
        · rw [hother c hc] at hwc
          exact absurd (waiterOf_inj hr hwc hw) hc
    · rw [AList.lookup_erase_ne hk, ht]
      by_cases hc : c = c'
      · subst hc
        rw [hw, hw']
        constructor
        · rintro ⟨hwc, -⟩
          cases hwc
          exact absurd rfl hk
        · rintro ⟨hwc, -⟩
          cases hwc
      · rw [hother c hc]
  | route reply res he hp =>
    rw [hp, own_snoc_other (by simp [he, Event.call])]
    by_cases hk : k = reply.replyTo
    · subst hk
      rw [AList.lookup_erase]
      constructor
      · intro hl
        cases hl
      · rintro ⟨hwc, hn⟩
        obtain ⟨-, -, -, -, ha, -⟩ := (waiterOf_own hr).1 hwc
        exact absurd (taken_snoc.2 (Or.inr ⟨reply, res, c, he, rfl, ha⟩)) hn
    · rw [AList.lookup_erase_ne hk, ht, taken_snoc, or_iff_left]
      rintro ⟨r, res', _, her, hrk, -⟩
      rw [he] at her
      cases her
      exact hk hrk.symm

/-! ### A host that replies to what it has taken -/

/-- A step after which the host has replied only to what it has taken from the wire. -/
def HostStep (s : Requests) (e : Event) (s' : Requests) : Prop :=
  Step s e s' ∧ ∀ reply res, e = .routed reply res → ∃ env ∈ s.wire.take s.consumed, env.messageId = reply.replyTo

private theorem HostStep.steps (hr : Steps HostStep (init identity capacity) h s) :
    Steps Step (init identity capacity) h s :=
  hr.mono fun _ _ _ hs => hs.1

/-- Every reply comes after the enqueue of an envelope with the ID that it names. -/
private theorem HostStep.routed_sent (hr : Steps HostStep (init identity capacity) h s) {h₁ h₂ : List Event}
    {reply : HostReply} {res : Except SdkError Nat} (hh : h = h₁ ++ .routed reply res :: h₂) :
    ∃ c env, .enqueued c env ∈ h₁ ∧ env.messageId = reply.replyTo ∧ .allocated c reply.replyTo ∈ h₁ := by
  rw [hh] at hr
  obtain ⟨t, t', ht, hs, -⟩ := hr.split
  obtain ⟨env, henv, hid⟩ := hs.2 _ _ rfl
  obtain ⟨c, hc⟩ := (mem_wire (HostStep.steps ht)).1 (List.mem_of_mem_take henv)
  obtain ⟨-, -, ha, -⟩ := enqueued_inv (HostStep.steps ht) hc
  exact ⟨c, env, hc, hid, hid ▸ ha⟩

private theorem HostStep.taken_iff (hr : Steps HostStep (init identity capacity) h s) {k : Nat} :
    Taken h k ↔ RoutedTo h k := by
  constructor
  · rintro ⟨h₁, h₂, reply, res, c, rfl, hk, -⟩
    exact ⟨reply, res, by simp, hk⟩
  · rintro ⟨reply, res, he, rfl⟩
    obtain ⟨h₁, h₂, hh⟩ := List.append_of_mem he
    obtain ⟨c, -, -, -, ha⟩ := HostStep.routed_sent hr hh
    exact ⟨h₁, h₂, reply, res, c, hh, rfl, ha⟩

private theorem mem_pending_iff (hr : Steps HostStep (init identity capacity) h s) {k : Nat} :
    k ∈ s.pending ↔ (∃ c spec, spec.registered = true ∧ s.calls c = some ⟨spec, .sending k⟩) ∨
      (∃ c spec, RequestSent h c k spec) ∧ ¬ RoutedTo h k := by
  have hr' := HostStep.steps hr
  rw [← AList.lookup_isSome, Option.isSome_iff_exists]
  constructor
  · rintro ⟨⟨t, c⟩, hl⟩
    obtain ⟨hw, htaken⟩ := (lookup_iff hr').1 hl
    obtain ⟨spec, hb, hreg, -, ha, hsending | ⟨env, he⟩⟩ := (waiterOf_own hr').1 hw
    · exact Or.inl ⟨c, spec, hreg, hsending⟩
    · obtain ⟨-, -, ha', -⟩ := enqueued_inv hr' he
      exact Or.inr ⟨⟨c, spec, hb, hreg, env, he, allocated_unique hr' ha' ha⟩, mt (HostStep.taken_iff hr).2 htaken⟩
  · rintro (⟨c, spec, hreg, hsending⟩ | ⟨⟨c, spec, hb, hreg, env, he, rfl⟩, hrouted⟩)
    · have hmem := fun {e : Event} => mem_iff_of_sending hr' hsending (e := e)
      have ha : .allocated c k ∈ h := (hmem rfl).2 (Or.inr rfl)
      refine ⟨⟨spec.trace, c⟩, (lookup_iff hr').2 ⟨(waiterOf_own hr').2
        ⟨spec, (hmem rfl).2 (Or.inl rfl), hreg, rfl, ha, Or.inl hsending⟩, ?_⟩⟩
      -- a reply names an envelope on the wire, but the call has not enqueued the one with this ID
      rintro ⟨h₁, h₂, reply, res, -, hh, rfl, -⟩
      obtain ⟨c', env, he, -, ha'⟩ := HostStep.routed_sent hr hh
      have hsub : h₁ ⊆ h := fun e he => hh ▸ List.mem_append_left _ he
      replace he := hsub he
      obtain rfl := (numbered hr').inj ha (hsub ha')
      exact absurd ((hmem rfl).1 he) (by simp)
    · obtain ⟨-, -, ha, -⟩ := enqueued_inv hr' he
      exact ⟨⟨spec.trace, c⟩, (lookup_iff hr').2 ⟨(waiterOf_own hr').2
        ⟨spec, hb, hreg, rfl, ha, Or.inr ⟨env, he⟩⟩, mt (HostStep.taken_iff hr).1 hrouted⟩⟩

/-- An ID whose enqueue was abandoned has no entry in the routing table. -/
private theorem notMem_pending_of_abandoned (hr : Steps HostStep (init identity capacity) h s) {c k : Nat}
    (ha : .allocated c k ∈ h) (he : ∀ env, .enqueued c env ∉ h)
    (hend : .dropped c ∈ h ∨ ∃ e, .returned c (.error e) ∈ h) : k ∉ s.pending := by
  have hr' := HostStep.steps hr
  intro hk
  rcases (mem_pending_iff hr).1 hk with ⟨c', spec, -, hsending⟩ | ⟨⟨c', spec, -, -, env, he', rfl⟩, -⟩
  · have hmem := fun {e : Event} => mem_iff_of_sending hr' hsending (e := e)
    obtain rfl := (numbered hr').inj ha ((hmem rfl).2 (Or.inr rfl))
    rcases hend with hd | ⟨e, hret⟩
    · exact absurd ((hmem rfl).1 hd) (by simp)
    · exact absurd ((hmem rfl).1 hret) (by simp)
  · obtain ⟨-, -, ha', -⟩ := enqueued_inv hr' he'
    obtain rfl := (numbered hr').inj ha ha'
    exact he env he'

/-- The routing table agrees with the wire, whichever calls have been dropped or have failed: an abandoned enqueue
leaves no entry, the first reply to a request with its trace is for the call that sent it, and any other reply
names no pending request, which ends the session. -/
theorem routing_agrees (hr : Steps HostStep (init identity capacity) h s) :
    (∀ k, k ∈ s.pending ↔
      (∃ c spec, spec.registered = true ∧ s.calls c = some ⟨spec, .sending k⟩) ∨
        (∃ c spec, RequestSent h c k spec) ∧ ¬ RoutedTo h k) ∧
    (∀ c k, .allocated c k ∈ h → (∀ env, .enqueued c env ∉ h) →
      (.dropped c ∈ h ∨ ∃ e, .returned c (.error e) ∈ h) → k ∉ s.pending) ∧
    (∀ c k spec, RequestSent h c k spec → ¬ RoutedTo h k →
      (HostClient.route s.pending k spec.trace).2 = .ok ⟨spec.trace, c⟩) ∧
    ∀ k trace, (∃ env ∈ s.wire, env.messageId = k) →
      RoutedTo h k ∨ (¬ ∃ c spec, RequestSent h c k spec) →
      (HostClient.route s.pending k trace).2 = .error HostClient.noPendingRequest ∧
        ∀ reply res s', reply.replyTo = k → Step s (.routed reply res) s' →
          res = .error HostClient.noPendingRequest ∧ s'.ended = some HostClient.noPendingRequest := by
  have hr' := HostStep.steps hr
  refine ⟨fun k => mem_pending_iff hr, fun c k => notMem_pending_of_abandoned hr, ?_, ?_⟩
  · rintro c k spec ⟨hb, hreg, env, he, rfl⟩ hrouted
    obtain ⟨-, -, ha, -⟩ := enqueued_inv hr' he
    exact HostClient.route_snd_eq_ok.2 ⟨(lookup_iff hr').2 ⟨(waiterOf_own hr').2
      ⟨spec, hb, hreg, rfl, ha, Or.inr ⟨env, he⟩⟩, mt (HostStep.taken_iff hr).1 hrouted⟩, rfl⟩
  · rintro k trace ⟨env, henv, rfl⟩ hrej
    have hnone : s.pending.lookup env.messageId = none := by
      rw [AList.lookup_eq_none, mem_pending_iff hr]
      rintro (⟨c, spec, -, hsending⟩ | ⟨hsent, hrouted⟩)
      · obtain ⟨c', he⟩ := (mem_wire hr').1 henv
        obtain ⟨-, -, ha, -⟩ := enqueued_inv hr' he
        have hmem := fun {e : Event} => mem_iff_of_sending hr' hsending (e := e)
        obtain rfl := (numbered hr').inj ha ((hmem rfl).2 (Or.inr rfl))
        exact absurd ((hmem rfl).1 he) (by simp)
      · exact hrej.elim hrouted fun hn => hn hsent
    refine ⟨HostClient.route_snd_of_none trace hnone, ?_⟩
    rintro reply res s' hid hs
    have hroute := HostClient.route_snd_of_none reply.trace (hid ▸ hnone)
    cases hs with
    | route _ hok =>
      rw [hroute] at hok
      cases hok
    | routeFailed _ herr =>
      rw [hroute] at herr
      cases herr
      exact ⟨rfl, rfl⟩

private def sampleSpec : SendSpec :=
  ⟨none, ⟨"correlation", some 7, 1, 0, some "task", some "group"⟩, .hostCall ⟨none⟩, true⟩

private def sampleIdentity : SessionIdentity := ⟨"session", "instance"⟩

private def sampleEnvelope : PluginEnvelope :=
  sampleIdentity.envelope 1 sampleSpec.replyTo sampleSpec.trace sampleSpec.payload

/-- A request is sent and its waiter dropped; the reply that comes later is still routed. -/
theorem routing_agrees_dropped : ∃ s,
    Steps HostStep (init sampleIdentity 4) [.began 0 sampleSpec, .allocated 0 1, .enqueued 0 sampleEnvelope,
      .disarmed 0, .dropped 0, .consumed] s ∧
    (HostClient.route s.pending 1 sampleSpec.trace).2 = .ok ⟨sampleSpec.trace, 0⟩ := by
  obtain ⟨s, hr⟩ : ∃ s, Steps HostStep (init sampleIdentity 4) [.began 0 sampleSpec, .allocated 0 1,
      .enqueued 0 sampleEnvelope, .disarmed 0, .dropped 0, .consumed] s := by
    refine Steps.exists_cons ⟨.begin rfl, by simp⟩ ?_
    refine Steps.exists_cons ⟨.register rfl rfl rfl rfl rfl, by simp⟩ ?_
    refine Steps.exists_cons ⟨.enqueue rfl rfl ?_, by simp⟩ ?_
    · exact Nat.zero_lt_succ 3
    refine Steps.exists_cons ⟨.disarm rfl, by simp⟩ ?_
    refine Steps.exists_cons ⟨.dropWaiting rfl, by simp⟩ ?_
    exact ⟨_, .single ⟨.consume rfl (by decide), by simp⟩⟩
  have hsent : RequestSent [.began 0 sampleSpec, .allocated 0 1, .enqueued 0 sampleEnvelope, .disarmed 0,
      .dropped 0, .consumed] 0 1 sampleSpec := ⟨by simp, rfl, sampleEnvelope, by simp, rfl⟩
  exact ⟨s, hr, (routing_agrees hr).2.2.1 0 1 sampleSpec hsent (by simp [RoutedTo])⟩

/-! ### Any replies -/

/-- A reply to the ID that was routed to a call. -/
def Event.accepts (k : Nat) : Event → Bool
  | .routed reply (.ok _) => reply.replyTo == k
  | _ => false

private theorem Event.accepts_iff {k : Nat} {e : Event} :
    e.accepts k = true ↔ ∃ reply c, e = .routed reply (.ok c) ∧ reply.replyTo = k := by
  constructor
  · intro he
    unfold Event.accepts at he
    split at he
    · exact ⟨_, _, rfl, by simpa using he⟩
    · cases he
  · rintro ⟨reply, c, rfl, rfl⟩
    simp [Event.accepts]

/-- A reply is routed to the call that allocated the ID it names, with the trace that the call sent, and no reply
to the ID has been routed before. -/
private theorem accepted_inv (hr : Steps Step (init identity capacity) h s) {h₁ h₂ : List Event} {reply : HostReply}
    {c : Nat} (hh : h = h₁ ++ .routed reply (.ok c) :: h₂) :
    ∃ spec, .began c spec ∈ h₁ ∧ spec.registered = true ∧ spec.trace = reply.trace ∧
      .allocated c reply.replyTo ∈ h₁ ∧ ¬ Taken h₁ reply.replyTo := by
  rw [hh] at hr
  obtain ⟨t, t', ht, hs, -⟩ := hr.split
  cases hs with
  | route _ hok =>
    obtain ⟨hl, htrace⟩ := HostClient.route_snd_eq_ok.1 hok
    obtain ⟨hw, htaken⟩ := (lookup_iff ht).1 hl
    obtain ⟨spec, hb, hreg, hspec, ha, -⟩ := (waiterOf_own ht).1 hw
    exact ⟨spec, hb, hreg, hspec.trans htrace, ha, htaken⟩

private theorem filter_accepts_of_not_taken (hr : Steps Step (init identity capacity) h s) {k : Nat}
    (hk : ¬ Taken h k) : h.filter (Event.accepts k) = [] := by
  rw [List.filter_eq_nil_iff]
  intro e he hacc
  obtain ⟨reply, c, rfl, rfl⟩ := Event.accepts_iff.1 hacc
  obtain ⟨h₁, h₂, hh⟩ := List.append_of_mem he
  obtain ⟨-, -, -, -, ha, -⟩ := accepted_inv hr hh
  exact hk ⟨h₁, h₂, reply, _, c, hh, rfl, ha⟩

/-- At most one reply to an ID is routed to a call. -/
private theorem filter_accepts (hr : Steps Step (init identity capacity) h s) {reply : HostReply} {c : Nat}
    (he : .routed reply (.ok c) ∈ h) : h.filter (Event.accepts reply.replyTo) = [.routed reply (.ok c)] := by
  obtain ⟨h₁, h₂, hh⟩ := List.append_of_mem he
  obtain ⟨spec, -, -, -, ha, htaken⟩ := accepted_inv hr hh
  have hr₁ := hh ▸ hr
  obtain ⟨t, t', ht, -, -⟩ := hr₁.split
  have hafter : h₂.filter (Event.accepts reply.replyTo) = [] := by
    rw [List.filter_eq_nil_iff]
    intro e he' hacc
    obtain ⟨r, c', rfl, hid⟩ := Event.accepts_iff.1 hacc
    obtain ⟨g₁, g₂, rfl⟩ := List.append_of_mem he'
    have hh' : h = (h₁ ++ .routed reply (.ok c) :: g₁) ++ .routed r (.ok c') :: g₂ := by simp [hh]
    obtain ⟨-, -, -, -, -, hn⟩ := accepted_inv hr hh'
    exact hn ⟨h₁, g₁, reply, _, c, rfl, hid.symm, hid ▸ ha⟩
  rw [hh, List.filter_append, filter_accepts_of_not_taken ht htaken, List.filter_cons, hafter]
  simp [Event.accepts]

private theorem Step.inbox {e : Event} {s' : Requests} (hs : Step s e s') {c : Nat} {p : Payload}
    (hp : s'.inbox c = .filled p) :
    s.inbox c = .filled p ∨ ∃ reply, e = .routed reply (.ok c) ∧ reply.payload = p := by
  cases hs with
  | @route reply _ c' _ _ =>
    change Function.update s.inbox c' (.filled reply.payload) c = .filled p at hp
    by_cases hc : c = c'
    · subst hc
      rw [Function.update_self] at hp
      cases hp
      exact Or.inr ⟨reply, rfl, rfl⟩
    · exact Or.inl (by rwa [Function.update_of_ne hc] at hp)
  | @routeFailed reply _ _ _ =>
    refine Or.inl ?_
    cases hl : s.pending.lookup reply.replyTo with
    | none => simpa only [hl] using hp
    | some w =>
      simp only [hl] at hp
      by_cases hc : c = w.response
      · rw [hc, Function.update_self] at hp
        cases hp
      · rwa [Function.update_of_ne hc] at hp
  | _ => exact Or.inl hp

/-- What is in the oneshot of a call is the payload of a reply that was routed to it. -/
private theorem inbox_filled (hr : Steps Step (init identity capacity) h s) {c : Nat} {p : Payload}
    (hp : s.inbox c = .filled p) : ∃ reply, .routed reply (.ok c) ∈ h ∧ reply.payload = p := by
  refine Steps.history (I := fun h s => ∀ c p, s.inbox c = .filled p →
    ∃ reply, .routed reply (.ok c) ∈ h ∧ reply.payload = p) (fun c p hp => by cases hp)
    (fun h s e s' _ hs ht c p hp => ?_) hr c p hp
  rcases hs.inbox hp with hp | ⟨reply, rfl, rfl⟩
  · obtain ⟨reply, he, hpay⟩ := ht c p hp
    exact ⟨reply, List.mem_append_left _ he, hpay⟩
  · exact ⟨reply, by simp, rfl⟩

/-- The result `r` of a call hands on the payload `p` of a reply. -/
def HandsOn (r : Except SdkError Sent) (p : Payload) : Prop :=
  r = .ok (.reply p) ∨ ∃ e, p = .protocolError e ∧ r = .error (.host e)

private theorem HandsOn.eq_of_received {p q : Payload} (hp : HandsOn ((HostClient.received q).map .reply) p) :
    q = p := by
  unfold HostClient.received at hp
  split at hp <;> rcases hp with hp | ⟨e, rfl, hp⟩ <;> cases hp <;> rfl

/-- A call that hands on a payload waited for the reply to its own request, and that reply was routed to it. -/
private theorem returned_inv (hr : Steps Step (init identity capacity) h s) {c : Nat} {r : Except SdkError Sent}
    {p : Payload} {s' : Requests} (hs : Step s (.returned c r) s') (hp : HandsOn r p) :
    ∃ k spec reply, RequestSent h c k spec ∧ .routed reply (.ok c) ∈ h ∧ reply.replyTo = k ∧
      reply.trace = spec.trace ∧ reply.payload = p := by
  cases hs with
  | exhausted _ _ ha =>
    obtain ⟨-, rfl⟩ := SenderState.allocate_eq_error.1 ha
    rcases hp with hp | ⟨e, -, hp⟩ <;> cases hp
  | registerFailed _ _ _ _ hreg =>
    obtain ⟨-, rfl⟩ := HostClient.register_eq_error.1 hreg
    rcases hp with hp | ⟨e, -, hp⟩ <;> cases hp
  | sendFailed => rcases hp with hp | ⟨e, -, hp⟩ <;> cases hp
  | receiveFailed => rcases hp with hp | ⟨e, -, hp⟩ <;> cases hp
  | @receive _ k spec payload hc hin =>
    obtain rfl := hp.eq_of_received
    obtain ⟨reply, he, rfl⟩ := inbox_filled hr hin
    have hj := (journey hr).2 c
    rw [hc] at hj
    generalize hl : own c h = l at hj
    cases hj
    rename_i hreg
    have hown : ∀ {e}, e ∈ own c h → e ∈ h := fun he => (mem_own.1 he).1
    have hb : .began c spec ∈ h := hown (by simp [hl])
    have ha : .allocated c k ∈ h := hown (by simp [hl])
    have henv : .enqueued c (identity.envelope k spec.replyTo spec.trace spec.payload) ∈ h := hown (by simp [hl])
    obtain ⟨h₁, h₂, hh⟩ := List.append_of_mem he
    obtain ⟨spec', hb', -, htrace, ha', -⟩ := accepted_inv hr hh
    have hsub : h₁ ⊆ h := fun e he => hh ▸ List.mem_append_left _ he
    obtain rfl := began_unique hr hb (hsub hb')
    exact ⟨k, spec, reply, ⟨hb, hreg, _, henv, rfl⟩, he, allocated_unique hr (hsub ha') ha, htrace.symm, rfl⟩

/-- Once the serve loop has ended, no reply is routed. -/
theorem ended_stable {s' : Requests} {e : SdkError} (hr : Steps Step s h s') (he : s.ended = some e) :
    s'.ended = some e ∧ ∀ reply res, .routed reply res ∉ h := by
  refine Steps.history (I := fun h s' => s'.ended = some e ∧ ∀ reply res, .routed reply res ∉ h)
    ⟨he, by simp⟩ (fun h t e' t' _ hs ht => ?_) hr
  cases hs with
  | route hn => exact absurd (ht.1.symm.trans hn) (by simp)
  | routeFailed hn => exact absurd (ht.1.symm.trans hn) (by simp)
  | _ => exact ⟨ht.1, fun reply res => by simpa using ht.2 reply res⟩

/-- Responses are never crossed, whatever the host replies.  A call that hands on a payload got it from the only
reply to its own request that was routed to a call, which carried the trace of the request; a reply fills the
oneshot of no call but the one that allocated the ID it names; and a reply with another trace fills none and ends
the session. -/
theorem responses_not_crossed (hr : Steps Step (init identity capacity) h s) :
    (∀ c r p h₁ h₂, h = h₁ ++ .returned c r :: h₂ → HandsOn r p →
      ∃ k spec reply, RequestSent h₁ c k spec ∧ .routed reply (.ok c) ∈ h₁ ∧
        h.filter (Event.accepts k) = [.routed reply (.ok c)] ∧ reply.trace = spec.trace ∧ reply.payload = p) ∧
    (∀ e s' c p, Step s e s' → s'.inbox c = .filled p → s.inbox c ≠ .filled p →
      ∃ reply, e = .routed reply (.ok c) ∧ reply.payload = p ∧ .allocated c reply.replyTo ∈ h) ∧
    ∀ reply res s' c spec, Step s (.routed reply res) s' → .began c spec ∈ h → .allocated c reply.replyTo ∈ h →
      reply.trace ≠ spec.trace →
      (∀ c' p, s'.inbox c' = .filled p → s.inbox c' = .filled p) ∧
        ∃ e, res = .error e ∧ ∀ h' t, Steps Step s' h' t →
          t.ended = some e ∧ ∀ reply' res', .routed reply' res' ∉ h' := by
  refine ⟨?_, ?_, ?_⟩
  · rintro c r p h₁ h₂ rfl hp
    obtain ⟨t, t', ht, hs, -⟩ := hr.split
    obtain ⟨k, spec, reply, hsent, he, rfl, htrace, hpay⟩ := returned_inv ht hs hp
    exact ⟨_, spec, reply, hsent, he, filter_accepts hr (List.mem_append_left _ he), htrace, hpay⟩
  · intro e s' c p hs hp hn
    obtain ⟨reply, rfl, hpay⟩ := (hs.inbox hp).resolve_left hn
    obtain ⟨-, -, -, -, ha, -⟩ := accepted_inv (hr.snoc hs) rfl
    exact ⟨reply, rfl, hpay, ha⟩
  · intro reply res s' c spec hs hb ha hne
    cases res with
    | ok c' =>
      -- the trace of the request that the reply was routed to is the trace of the reply
      obtain ⟨spec', hb', -, htrace, ha', -⟩ := accepted_inv (hr.snoc hs) rfl
      obtain rfl := (numbered hr).inj ha ha'
      exact absurd (began_unique hr hb hb' ▸ htrace.symm) hne
    | error e =>
      refine ⟨fun c' p hp => (hs.inbox hp).resolve_right fun ⟨_, her, _⟩ => (by cases her), e, rfl,
        fun h' t ht => ended_stable ht ?_⟩
      cases hs
      rfl

private def sampleSpec' : SendSpec := ⟨none, ⟨"correlation", some 8, 2, 0, some "task", none⟩, .hostCall ⟨none⟩, true⟩

private def sampleEnvelope' : PluginEnvelope :=
  sampleIdentity.envelope 2 sampleSpec'.replyTo sampleSpec'.trace sampleSpec'.payload

private def sampleResult : Payload := .hostResult ⟨some (.getConfig ⟨none⟩)⟩

/-- Two calls are sent and wait, and the host answers the second one first. -/
private def sampleAnswered : List Event :=
  [.began 0 sampleSpec, .allocated 0 1, .began 1 sampleSpec', .enqueued 0 sampleEnvelope, .allocated 1 2, .disarmed 0,
    .enqueued 1 sampleEnvelope', .disarmed 1, .routed ⟨2, sampleSpec'.trace, .ready⟩ (.ok 1),
    .routed ⟨1, sampleSpec.trace, sampleResult⟩ (.ok 0)]

/-- Each of the two calls gets the payload of the one reply with its trace. -/
theorem responses_not_crossed_sampleAnswered : ∃ s,
    Steps Step (init sampleIdentity 4)
      (sampleAnswered ++ [.returned 0 (.ok (.reply sampleResult)), .returned 1 (.ok (.reply .ready))]) s ∧
    (∃ k reply, reply.payload = sampleResult ∧ reply.trace = sampleSpec.trace ∧
      sampleAnswered.filter (Event.accepts k) = [.routed reply (.ok 0)]) ∧
    ∃ k reply, reply.payload = .ready ∧ reply.trace = sampleSpec'.trace ∧
      sampleAnswered.filter (Event.accepts k) = [.routed reply (.ok 1)] := by
  obtain ⟨s, hr⟩ : ∃ s, Steps Step (init sampleIdentity 4)
      (sampleAnswered ++ [.returned 0 (.ok (.reply sampleResult)), .returned 1 (.ok (.reply .ready))]) s := by
    refine Steps.exists_cons (.begin rfl) ?_
    refine Steps.exists_cons (.register rfl rfl rfl rfl rfl) ?_
    refine Steps.exists_cons (.begin rfl) ?_
    refine Steps.exists_cons (.enqueue rfl rfl (Nat.zero_lt_succ 3)) ?_
    refine Steps.exists_cons (.register rfl rfl rfl rfl rfl) ?_
    refine Steps.exists_cons (.disarm rfl) ?_
    refine Steps.exists_cons (.enqueue rfl rfl (Nat.one_lt_succ_succ 2)) ?_
    refine Steps.exists_cons (.disarm rfl) ?_
    refine Steps.exists_cons (.route rfl rfl) ?_
    refine Steps.exists_cons (.route rfl rfl) ?_
    refine Steps.exists_cons
      (show Step _ (.returned 0 ((HostClient.received sampleResult).map .reply)) _ from .receive rfl rfl) ?_
    exact ⟨_, .single (show Step _ (.returned 1 ((HostClient.received .ready).map .reply)) _ from .receive rfl rfl)⟩
  obtain ⟨hreturned, -⟩ := responses_not_crossed hr
  obtain ⟨k, spec, reply, hsent, -, hf, ht, hp⟩ := hreturned 0 _ sampleResult sampleAnswered _ rfl (Or.inl rfl)
  obtain rfl : spec = sampleSpec := by simpa [RequestSent, sampleAnswered] using hsent.1
  obtain ⟨k', spec', reply', hsent', -, hf', ht', hp'⟩ := hreturned 1 _ .ready
    (sampleAnswered ++ [.returned 0 (.ok (.reply sampleResult))]) [] rfl (Or.inl rfl)
  obtain rfl : spec' = sampleSpec' := by simpa [RequestSent, sampleAnswered] using hsent'.1
  rw [List.filter_append, List.filter_cons_of_neg (by simp [Event.accepts]),
    List.filter_cons_of_neg (by simp [Event.accepts]), List.filter_nil, List.append_nil] at hf hf'
  exact ⟨s, hr, ⟨k, reply, hp, ht, hf⟩, k', reply', hp', ht', hf'⟩

end Requests

end PluginSdk
