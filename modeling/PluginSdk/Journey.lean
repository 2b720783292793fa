import PluginSdk.HostClient

/-!
# The journey of a call

The events of one call, in order, are one of a few short lists, and the list determines the phase of the call
(`Requests.journey`).  Message IDs are allocated in increasing order and never twice (`Requests.Numbered`).  What a
step does to the routing table is said once, in terms of the waiters that the calls have registered
(`Requests.Step.table`); the routing results are read off from it.
-/

namespace PluginSdk

open Lts

namespace Requests

/-- The call that makes a step; the output stream and the router are nobody's. -/
def Event.call : Event → Option Nat
  | .began c _ | .allocated c _ | .enqueued c _ | .disarmed c | .returned c _ | .dropped c => some c
  | .consumed | .closed | .routed _ _ => none

/-- The events of one call. -/
def own (c : Nat) (h : List Event) : List Event := h.filter fun e => e.call == some c

@[simp] theorem own_nil (c : Nat) : own c [] = [] := rfl

private theorem own_snoc_same {c : Nat} {e : Event} (he : e.call = some c) (h : List Event) :
    own c (h ++ [e]) = own c h ++ [e] := by
  simp [own, List.filter_append, he]

theorem own_snoc_other {c : Nat} {e : Event} (he : e.call ≠ some c) (h : List Event) :
    own c (h ++ [e]) = own c h := by
  simp [own, List.filter_append, he]

theorem mem_own {c : Nat} {e : Event} {h : List Event} : e ∈ own c h ↔ e ∈ h ∧ e.call = some c := by
  simp [own]

/-- A journey of the call `c` in a session of the given identity, and the phase that it has led to. -/
inductive Journey (identity : SessionIdentity) (c : Nat) : List Event → Option RequestCall → Prop
  | none : Journey identity c [] none
  | locking (spec : SendSpec) : Journey identity c [.began c spec] (some ⟨spec, .locking⟩)
  | refused (spec : SendSpec) (message : String) :
      Journey identity c [.began c spec, .returned c (.error (.protocol message))]
        (some ⟨spec, .done (.error (.protocol message))⟩)
  | abandoned (spec : SendSpec) : Journey identity c [.began c spec, .dropped c] (some ⟨spec, .dropped⟩)
  | sending (spec : SendSpec) (k : Nat) :
      Journey identity c [.began c spec, .allocated c k] (some ⟨spec, .sending k⟩)
  | failed (spec : SendSpec) (k : Nat) :
      Journey identity c [.began c spec, .allocated c k, .returned c (.error outputClosed)]
        (some ⟨spec, .done (.error outputClosed)⟩)
  | cancelled (spec : SendSpec) (k : Nat) :
      Journey identity c [.began c spec, .allocated c k, .dropped c] (some ⟨spec, .dropped⟩)
  | posted (spec : SendSpec) (k : Nat) : spec.registered = false → Journey identity c
      [.began c spec, .allocated c k, .enqueued c (identity.envelope k spec.replyTo spec.trace spec.payload)]
      (some ⟨spec, .done (.ok (.id k))⟩)
  | sent (spec : SendSpec) (k : Nat) : spec.registered = true → Journey identity c
      [.began c spec, .allocated c k, .enqueued c (identity.envelope k spec.replyTo spec.trace spec.payload)]
      (some ⟨spec, .sent k⟩)
  | waiting (spec : SendSpec) (k : Nat) : spec.registered = true → Journey identity c
      [.began c spec, .allocated c k, .enqueued c (identity.envelope k spec.replyTo spec.trace spec.payload),
        .disarmed c] (some ⟨spec, .waiting k⟩)
  | answered (spec : SendSpec) (k : Nat) (payload : Payload) : spec.registered = true → Journey identity c
      [.began c spec, .allocated c k, .enqueued c (identity.envelope k spec.replyTo spec.trace spec.payload),
        .disarmed c, .returned c ((HostClient.received payload).map .reply)]
      (some ⟨spec, .done ((HostClient.received payload).map .reply)⟩)
  | unanswered (spec : SendSpec) (k : Nat) : spec.registered = true → Journey identity c
      [.began c spec, .allocated c k, .enqueued c (identity.envelope k spec.replyTo spec.trace spec.payload),
        .disarmed c, .returned c (.error (.runtime "wait for host response" "channel closed"))]
      (some ⟨spec, .done (.error (.runtime "wait for host response" "channel closed"))⟩)
  | forgotten (spec : SendSpec) (k : Nat) : spec.registered = true → Journey identity c
      [.began c spec, .allocated c k, .enqueued c (identity.envelope k spec.replyTo spec.trace spec.payload),
        .disarmed c, .dropped c] (some ⟨spec, .dropped⟩)

/-- What a step does to the calls: it is one of the environment, or it extends the journey of one call. -/
def Advances (s : Requests) (e : Event) (s' : Requests) : Prop :=
  s'.identity = s.identity ∧
    ((e.call = none ∧ s'.calls = s.calls) ∨
      ∃ c p, e.call = some c ∧ s'.calls = Function.update s.calls c p ∧
        ∀ l, Journey s.identity c l (s.calls c) → Journey s.identity c (l ++ [e]) p)

private theorem advances_of_call {s s' : Requests} {e : Event} {c : Nat} {p q : Option RequestCall}
    (hc : s.calls c = q) (hid : s'.identity = s.identity) (he : e.call = some c)
    (hcalls : s'.calls = Function.update s.calls c p)
    (hj : ∀ l, Journey s.identity c l q → Journey s.identity c (l ++ [e]) p) : Advances s e s' := by
  refine ⟨hid, Or.inr ⟨c, p, he, hcalls, fun l hl => hj l ?_⟩⟩
  rwa [hc] at hl

private theorem Step.advances {s s' : Requests} {e : Event} (hs : Step s e s') : Advances s e s' := by
  cases hs with
  | begin hc => exact advances_of_call hc rfl rfl rfl fun l hl => by cases hl; exact .locking _
  | exhausted hc _ ha =>
    obtain ⟨-, rfl⟩ := SenderState.allocate_eq_error.1 ha
    exact advances_of_call hc rfl rfl rfl fun l hl => by cases hl; exact .refused _ _
  | allocate hc => exact advances_of_call hc rfl rfl rfl fun l hl => by cases hl; exact .sending _ _
  | register hc => exact advances_of_call hc rfl rfl rfl fun l hl => by cases hl; exact .sending _ _
  | registerFailed hc _ _ _ hr =>
    obtain ⟨-, rfl⟩ := HostClient.register_eq_error.1 hr
    exact advances_of_call hc rfl rfl rfl fun l hl => by cases hl; exact .refused _ _
  | enqueue hc =>
    refine advances_of_call hc rfl rfl rfl fun l hl => ?_
    cases hl
    split
    · rename_i hreg
      exact .sent _ _ hreg
    · rename_i hreg
      exact .posted _ _ (by simpa using hreg)
  | sendFailed hc => exact advances_of_call hc rfl rfl rfl fun l hl => by cases hl; exact .failed _ _
  | disarm hc => exact advances_of_call hc rfl rfl rfl fun l hl => by cases hl; exact .waiting _ _ ‹_›
  | receive hc => exact advances_of_call hc rfl rfl rfl fun l hl => by cases hl; exact .answered _ _ _ ‹_›
  | receiveFailed hc => exact advances_of_call hc rfl rfl rfl fun l hl => by cases hl; exact .unanswered _ _ ‹_›
  | dropLocking hc => exact advances_of_call hc rfl rfl rfl fun l hl => by cases hl; exact .abandoned _
  | dropSending hc => exact advances_of_call hc rfl rfl rfl fun l hl => by cases hl; exact .cancelled _ _
  | dropWaiting hc => exact advances_of_call hc rfl rfl rfl fun l hl => by cases hl; exact .forgotten _ _ ‹_›
  | consume => exact ⟨rfl, Or.inl ⟨rfl, rfl⟩⟩
  | close => exact ⟨rfl, Or.inl ⟨rfl, rfl⟩⟩
  | route => exact ⟨rfl, Or.inl ⟨rfl, rfl⟩⟩
  | routeFailed => exact ⟨rfl, Or.inl ⟨rfl, rfl⟩⟩

/-- The events of every call form a journey that has led to its phase. -/
theorem journey {identity : SessionIdentity} {capacity : Nat} {h : List Event} {s : Requests}
    (hr : Steps Step (init identity capacity) h s) :
    s.identity = identity ∧ ∀ c, Journey identity c (own c h) (s.calls c) := by
  refine Steps.history (I := fun h s => s.identity = identity ∧ ∀ c, Journey identity c (own c h) (s.calls c))
    ⟨rfl, fun c => .none⟩ (fun h t e t' _ hs ht => ?_) hr
  obtain ⟨hid, hj⟩ := ht
  obtain ⟨hid', ⟨he, hcalls⟩ | ⟨c, p, he, hcalls, hadv⟩⟩ := hs.advances
  · refine ⟨hid'.trans hid, fun c => ?_⟩
    rw [own_snoc_other (by simp [he]), hcalls]
    exact hj c
  · refine ⟨hid'.trans hid, fun c' => ?_⟩
    rw [hcalls]
    by_cases hc : c' = c
    · subst hc
      rw [own_snoc_same he, Function.update_self]
      exact hid ▸ hadv _ (hid ▸ hj c')
    · rw [own_snoc_other (by simp [he, Ne.symm hc]), Function.update_of_ne hc]
      exact hj c'

/-! ### Message IDs -/

theorem Step.numbering {s s' : Requests} {e : Event} (hs : Step s e s') :
    (∃ c, e = .allocated c s.sender.nextMessageId ∧
        s'.sender.nextMessageId = s.sender.nextMessageId + 1 ∧ s.sender.nextMessageId + 1 < 2 ^ 64) ∨
      ((∀ c k, e ≠ .allocated c k) ∧ s.sender.nextMessageId ≤ s'.sender.nextMessageId) := by
  cases hs with
  | allocate _ _ ha =>
    obtain ⟨rfl, hn, hlt⟩ := SenderState.allocate_eq_ok.1 ha
    exact Or.inl ⟨_, rfl, hn, hlt⟩
  | register _ _ ha =>
    obtain ⟨rfl, hn, hlt⟩ := SenderState.allocate_eq_ok.1 ha
    exact Or.inl ⟨_, rfl, hn, hlt⟩
  | registerFailed _ _ ha =>
    obtain ⟨-, hn, -⟩ := SenderState.allocate_eq_ok.1 ha
    exact Or.inr ⟨by simp, by simp [hn]⟩
  | sendFailed => exact Or.inr ⟨by simp, le_of_eq rfl⟩
  | dropSending => exact Or.inr ⟨by simp, le_of_eq rfl⟩
  | _ => exact Or.inr ⟨by simp, le_rfl⟩

/-- Message IDs are handed out once, in increasing order, and never zero. -/
structure Numbered (h : List Event) (s : Requests) : Prop where
  next_pos : 0 < s.sender.nextMessageId
  pos : ∀ {c k}, .allocated c k ∈ h → 0 < k
  bounded : ∀ {c k}, .allocated c k ∈ h → k < 2 ^ 64
  lt : ∀ {c k}, .allocated c k ∈ h → k < s.sender.nextMessageId
  inj : ∀ {c c' k}, .allocated c k ∈ h → .allocated c' k ∈ h → c = c'

theorem numbered {identity : SessionIdentity} {capacity : Nat} {h : List Event} {s : Requests}
    (hr : Steps Step (init identity capacity) h s) : Numbered h s := by
  refine Steps.history (I := Numbered) ⟨by simp [init], by simp, by simp, by simp, by simp⟩
    (fun h t e t' _ hs hn => ?_) hr
  have hmem : ∀ {c k}, Event.allocated c k ∈ h ++ [e] → .allocated c k ∈ h ∨ e = .allocated c k := by
    intro c k hk
    rcases List.mem_append.1 hk with hk | hk
    · exact Or.inl hk
    · exact Or.inr (List.mem_singleton.1 hk).symm
  rcases hs.numbering with ⟨c, rfl, hnext, hlt⟩ | ⟨hne, hle⟩
  · have hnew : ∀ {c' k}, Event.allocated c' k ∈ h ++ [.allocated c t.sender.nextMessageId] →
        .allocated c' k ∈ h ∨ c' = c ∧ k = t.sender.nextMessageId := by
      intro c' k hk
      rcases hmem hk with hk | hk
      · exact Or.inl hk
      · cases hk
        exact Or.inr ⟨rfl, rfl⟩
    refine ⟨by omega, fun hk => ?_, fun hk => ?_, fun hk => ?_, fun hk hk' => ?_⟩
    · rcases hnew hk with hk | ⟨-, rfl⟩
      · exact hn.pos hk
      · exact hn.next_pos
    · rcases hnew hk with hk | ⟨-, rfl⟩
      · exact hn.bounded hk
      · omega
    · rcases hnew hk with hk | ⟨-, rfl⟩
      · have := hn.lt hk
        omega
      · omega
    · rcases hnew hk with ho | ⟨rfl, he⟩ <;> rcases hnew hk' with ho' | ⟨rfl, he'⟩
      · exact hn.inj ho ho'
      · exact absurd (hn.lt ho) (by omega)
      · exact absurd (hn.lt ho') (by omega)
      · rfl
  · have hold : ∀ {c k}, Event.allocated c k ∈ h ++ [e] → .allocated c k ∈ h := fun hk =>
      (hmem hk).resolve_right (hne _ _)
    refine ⟨lt_of_lt_of_le hn.next_pos hle, fun hk => hn.pos (hold hk), fun hk => hn.bounded (hold hk),
      fun hk => lt_of_lt_of_le (hn.lt (hold hk)) hle, fun hk hk' => hn.inj (hold hk) (hold hk')⟩

/-! ### Registered waiters -/

/-- The entry that a call with these events has in the routing table, as long as no reply has taken it out. -/
def waiterOf : List Event → Option (Nat × TraceContext)
  | [.began _ spec, .allocated _ k] => if spec.registered then some (k, spec.trace) else none
  | .began _ spec :: .allocated _ k :: .enqueued _ _ :: _ =>
    if spec.registered then some (k, spec.trace) else none
  | _ => none

/-- What a step does to the routing table. -/
inductive TableStep (h : List Event) (s : Requests) (e : Event) (s' : Requests) : Prop
  /-- Nothing. -/
  | keep : s'.pending = s.pending → (∀ reply res, e ≠ .routed reply res) →
      (∀ c, waiterOf (own c (h ++ [e])) = waiterOf (own c h)) → TableStep h s e s'
  /-- The call that makes the step registers its waiter, under a new ID. -/
  | register (c : Nat) (t : TraceContext) : e = .allocated c s.sender.nextMessageId →
      s'.pending = s.pending.insert s.sender.nextMessageId ⟨t, c⟩ →
      waiterOf (own c (h ++ [e])) = some (s.sender.nextMessageId, t) → TableStep h s e s'
  /-- The call that makes the step has not enqueued its request, and drops its guard. -/
  | release (c k : Nat) (t : TraceContext) : e.call = some c → waiterOf (own c h) = some (k, t) →
      s'.pending = s.pending.erase k → waiterOf (own c (h ++ [e])) = none → TableStep h s e s'
  /-- A reply takes out what is there under its ID. -/
  | route (reply : HostReply) (res : Except SdkError Nat) : e = .routed reply res →
      s'.pending = s.pending.erase reply.replyTo → TableStep h s e s'

section

variable {s s' : Requests} {e : Event} {h : List Event} {c : Nat}

private theorem keep_of_call {q : Option RequestCall} (hj : ∀ c, Journey s.identity c (own c h) (s.calls c))
    (hc : s.calls c = q) (he : e.call = some c) (hp : s'.pending = s.pending)
    (hl : ∀ l, Journey s.identity c l q → waiterOf (l ++ [e]) = waiterOf l) : TableStep h s e s' := by
  refine .keep hp (fun r res her => by rw [her] at he; cases he) fun c' => ?_
  by_cases hcc : c' = c
  · subst hcc
    rw [own_snoc_same he]
    exact hl _ (hc ▸ hj c')
  · rw [own_snoc_other (by simp [he, Ne.symm hcc])]

private theorem keep_of_environment (he : e.call = none) (hr : ∀ r res, e ≠ .routed r res)
    (hp : s'.pending = s.pending) : TableStep h s e s' :=
  .keep hp hr fun c => by rw [own_snoc_other (by simp [he])]

private theorem release_of_sending {k : Nat} {spec : SendSpec} {p : Phase}
    (hj : ∀ c, Journey s.identity c (own c h) (s.calls c)) (hc : s.calls c = some ⟨spec, .sending k⟩)
    (he : e.call = some c) (hl : ∀ e₁ e₂, waiterOf ([e₁, e₂] ++ [e]) = none) :
    TableStep h s e ((s.setPhase c spec p).release spec k) := by
  have hown : own c h = [.began c spec, .allocated c k] := by
    have hl := hj c
    rw [hc] at hl
    generalize own c h = l at hl
    cases hl
    rfl
  cases hreg : spec.registered with
  | false =>
    refine keep_of_call hj hc he (by simp [release, setPhase, hreg]) fun l hl' => ?_
    cases hl'
    rw [hl]
    simp [waiterOf, hreg]
  | true =>
    refine .release c k spec.trace he (by simp [hown, waiterOf, hreg]) ?_ ?_
    · simp [release, setPhase, HostClient.unregister, hreg]
    · rw [own_snoc_same he, hown]
      exact hl _ _

theorem Step.table (hs : Step s e s') (hj : ∀ c, Journey s.identity c (own c h) (s.calls c)) :
    TableStep h s e s' := by
  cases hs with
  | begin hc => exact keep_of_call hj hc rfl rfl fun l hl => by cases hl; rfl
  | exhausted hc => exact keep_of_call hj hc rfl rfl fun l hl => by cases hl; rfl
  | allocate hc _ _ hreg => exact keep_of_call hj hc rfl rfl fun l hl => by cases hl; simp [waiterOf, hreg]
  | @register c k spec _ _ hc _ ha hreg hins =>
    obtain ⟨rfl, -, -⟩ := SenderState.allocate_eq_ok.1 ha
    obtain ⟨-, rfl⟩ := HostClient.register_eq_ok.1 hins
    refine .register c spec.trace rfl rfl ?_
    have hl := hj c
    rw [hc] at hl
    rw [own_snoc_same rfl]
    generalize own c h = l at hl
    cases hl
    simp [waiterOf, hreg]
  | registerFailed hc => exact keep_of_call hj hc rfl rfl fun l hl => by cases hl; rfl
  | enqueue hc => exact keep_of_call hj hc rfl rfl fun l hl => by cases hl; rfl
  | sendFailed hc => exact release_of_sending hj hc rfl fun _ _ => by simp [waiterOf]
  | disarm hc => exact keep_of_call hj hc rfl rfl fun l hl => by cases hl; rfl
  | receive hc => exact keep_of_call hj hc rfl rfl fun l hl => by cases hl; rfl
  | receiveFailed hc => exact keep_of_call hj hc rfl rfl fun l hl => by cases hl; rfl
  | dropLocking hc => exact keep_of_call hj hc rfl rfl fun l hl => by cases hl; rfl
  | dropSending hc => exact release_of_sending hj hc rfl fun _ _ => by simp [waiterOf]
  | dropWaiting hc => exact keep_of_call hj hc rfl rfl fun l hl => by cases hl; rfl
  | consume => exact keep_of_environment rfl (by simp) rfl
  | close => exact keep_of_environment rfl (by simp) rfl
  | route => exact .route _ _ rfl (HostClient.route_fst ..)
  | routeFailed => exact .route _ _ rfl (HostClient.route_fst ..)

end

end Requests

end PluginSdk
