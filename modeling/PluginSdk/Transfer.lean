import PluginSdk.Calls

/-!
# The transfer of an artifact

What an execution of `store_artifact` that returns an artifact has shown on the way: the start of the transfer and the
acceptance of the host, all chunks, the completion and the confirmation (`storeArtifact_transferred`).
-/

namespace PluginSdk

open Program

/-! ### What the operations of a context show -/

/-- The event enqueues the payload through a context. -/
def Emits (payload : Payload) (e : ServeEvent) : Prop :=
  ∃ actor call envelope, e = .emitted actor call envelope ∧ envelope.payload = some payload

/-- The request is enqueued, and the reply that names it is handed to its call.  A host that guesses an ID can reply
before the request is on the wire. -/
def Exchanged (payload answer : Payload) (es : List ServeEvent) : Prop :=
  ∃ actor call envelope reply, envelope.payload = some payload ∧ reply.replyTo = some envelope.messageId ∧
    reply.payload = some answer ∧
    (es = [.emitted actor call envelope, .received reply (some call)] ∨
      es = [.received reply (some call), .emitted actor call envelope])

/-- What the answer of an operation says about the run. -/
def Shows : (o : ContextOp) → o.Reply → List ServeEvent → Prop
  | .send _ payload, r, es =>
    r = Selected.ready (α := Except SdkError Unit) (.ok ()) → ∃ e, es = [e] ∧ Emits payload e
  | .request _ payload, r, es => ∀ answer, r = Selected.ready (α := Except SdkError Payload) (.ok answer) →
      Exchanged payload answer es
  | .readExact length, r, es => es = [] ∧
      ∀ bytes, r = Selected.ready (α := Except String (List UInt8)) (.ok bytes) → bytes.length = length
  | _, _, es => es = []

theorem shows_cancelled {o : ContextOp} {r : o.Reply} (h : o.cancelled = some r) : Shows o r [] := by
  cases o with
  | ensureActive | now => cases h
  | streamPosition | read | seekStart => exact rfl
  | readExact length =>
    cases Option.some.inj h
    exact ⟨rfl, fun bytes hb => by cases hb⟩
  | send trace payload =>
    cases Option.some.inj h
    exact fun hr => by cases hr
  | request trace payload =>
    cases Option.some.inj h
    exact fun answer hr => by cases hr

theorem shows_io {o : ContextOp} {r : o.Reply} (h : o.Io r) : Shows o r [] := by
  cases o with
  | readExact length =>
    obtain ⟨result, rfl, hlen⟩ := h
    refine ⟨rfl, fun bytes hb => hlen bytes ?_⟩
    cases hb
    rfl
  | streamPosition | read | seekStart => exact rfl
  | _ => exact h.elim

section Executions

variable {es : List ServeEvent} {context : ActionContext} {trace : TraceContext} {payload answer : Payload}

private theorem lift_inv {α : Type} {x : Except SdkError α} {a : α}
    (h : Exec Shows (ContextProgram.lift x).run es (.pure (.ok a))) : x = .ok a ∧ es = [] := by
  obtain ⟨rfl, hx⟩ := Exec.pure_inv h
  cases hx
  exact ⟨rfl, rfl⟩

/-- An operation and what is made of its reply. -/
private theorem op_inv {α : Type} {o : ContextOp} {f : o.Reply → Except SdkError α} {a : α}
    (h : Exec Shows (.op o fun r => .pure (f r)) es (.pure (.ok a))) : ∃ r, f r = .ok a ∧ Shows o r es := by
  cases h with
  | cons hr hk =>
    obtain ⟨rfl, hx⟩ := Exec.pure_inv hk
    exact ⟨_, (Program.pure.inj hx).symm, by simpa using hr⟩

/-- A check on the way shows nothing. -/
private theorem ensureActive_bind_inv {α : Type} {f : Unit → ContextProgram α} {a : α}
    (h : Exec Shows (ContextProgram.ensureActive >>= f).run es (.pure (.ok a))) :
    Exec Shows (f ()).run es (.pure (.ok a)) := by
  obtain ⟨_, es₁, es₂, rfl, h₁, h₂⟩ := Exec.ok_bind_inv h
  obtain ⟨r, -, hr⟩ := op_inv h₁
  obtain rfl : es₁ = [] := hr
  exact h₂

private theorem lift_bind_inv {α β : Type} {x : Except SdkError α} {f : α → ContextProgram β} {b : β}
    (h : Exec Shows (ContextProgram.lift x >>= f).run es (.pure (.ok b))) :
    ∃ a, x = .ok a ∧ Exec Shows (f a).run es (.pure (.ok b)) := by
  obtain ⟨a, es₁, es₂, rfl, h₁, h₂⟩ := Exec.ok_bind_inv h
  obtain ⟨hx, rfl⟩ := lift_inv h₁
  exact ⟨a, hx, h₂⟩

private theorem send_inv (h : Exec Shows (ContextProgram.send trace payload).run es (.pure (.ok ()))) :
    ∃ e, es = [e] ∧ Emits payload e := by
  obtain ⟨r, hr, hs⟩ := op_inv h
  refine hs ?_
  cases r with
  | cancelled => cases hr
  | ready result => exact congrArg Selected.ready hr

private theorem request_inv (h : Exec Shows (context.request payload).run es (.pure (.ok answer))) :
    Exchanged payload answer es := by
  obtain ⟨r, hr, hs⟩ := op_inv (ensureActive_bind_inv h)
  refine hs answer ?_
  cases r with
  | cancelled => cases hr
  | ready result => exact congrArg Selected.ready hr

private theorem readExact_inv {length : Nat} {operation : String} {bytes : List UInt8}
    (h : Exec Shows (ContextProgram.readExact length operation).run es (.pure (.ok bytes))) :
    bytes.length = length ∧ es = [] := by
  obtain ⟨r, hr, hs⟩ := op_inv h
  refine ⟨hs.2 bytes ?_, hs.1⟩
  cases r with
  | cancelled => cases hr
  | ready result =>
    cases result with
    | error source => cases hr
    | ok bytes' =>
      cases hr
      rfl

end Executions

/-! ### The transfer -/

/-- The chunks from `index` on, one event for each piece of the data. -/
def Chunks (artifactId : PluginArtifactId) : Nat → List (List UInt8) → List ServeEvent → Prop
  | _, [], es => es = []
  | index, data :: rest, es => ∃ e es', es = e :: es' ∧ Emits (.artifactChunk ⟨some artifactId, index, data⟩) e ∧
      Chunks artifactId (index + 1) rest es'

/-- The whole transfer: its start was accepted, as many chunks as it announces were enqueued with as many bytes as the
descriptor names, and its completion was confirmed. -/
def Transferred (jobId : String) (descriptor : ArtifactDescriptor) (es : List ServeEvent) : Prop :=
  ∃ artifactId pieces start chunks complete, descriptor.artifactId = some artifactId ∧
    es = start ++ (chunks ++ complete) ∧
    Exchanged (.artifactStart ⟨some ⟨jobId⟩, some descriptor, pieces.length⟩)
    (.artifactAccepted ⟨some artifactId⟩) start ∧ Chunks artifactId 0 pieces chunks ∧
    (pieces.map List.length).sum = descriptor.sizeBytes ∧ Exchanged (.artifactComplete ⟨some artifactId⟩)
    (.artifactStored ⟨some artifactId⟩) complete

variable {platform : Platform} {context : ActionContext} {descriptor : ArtifactDescriptor} {es : List ServeEvent}

private theorem sendChunks_inv {artifactId : PluginArtifactId} {chunkBytes chunks index remaining : Nat}
    (h : Exec Shows (context.sendChunks artifactId chunkBytes chunks index remaining).run es (.pure (.ok ()))) :
    ∃ pieces, Chunks artifactId index pieces es ∧ pieces.length = chunks ∧
      (pieces.map List.length).sum = min remaining (chunks * chunkBytes) := by
  induction chunks generalizing index remaining es with
  | zero =>
    obtain ⟨rfl, -⟩ := Exec.pure_inv h
    exact ⟨[], rfl, rfl, by simp⟩
  | succ chunks ih =>
    obtain ⟨data, es₁, es₂, rfl, hread, hsend⟩ := Exec.ok_bind_inv (ensureActive_bind_inv h)
    obtain ⟨hlen, rfl⟩ := readExact_inv hread
    obtain ⟨_, es₃, es₄, rfl, hsend, hrest⟩ := Exec.ok_bind_inv hsend
    obtain ⟨e, rfl, he⟩ := send_inv hsend
    obtain ⟨pieces, hchunks, hcount, hsum⟩ := ih hrest
    refine ⟨data :: pieces, ⟨e, es₄, rfl, he, hchunks⟩, by simp [hcount], ?_⟩
    rw [List.map_cons, List.sum_cons, hlen, hsum, Nat.succ_mul]
    omega

theorem acceptedBy_eq_true {artifactId : PluginArtifactId} {payload : Payload}
    (h : ActionContext.acceptedBy artifactId payload = true) : payload = .artifactAccepted ⟨some artifactId⟩ := by
  obtain ⟨value⟩ := artifactId
  unfold ActionContext.acceptedBy at h
  split at h
  · rename_i accepted
    obtain ⟨_ | ⟨⟨value'⟩⟩⟩ := accepted
    · cases h
    · obtain rfl : value' = value := by simpa using h
      rfl
  · cases h

theorem storedBy_eq_true {artifactId : PluginArtifactId} {payload : Payload}
    (h : ActionContext.storedBy artifactId payload = true) : payload = .artifactStored ⟨some artifactId⟩ := by
  unfold ActionContext.storedBy at h
  split at h
  · rename_i stored
    obtain ⟨id⟩ := stored
    rw [show id = some artifactId by simpa using h]
  · cases h

private theorem transfer_inv {artifactId : PluginArtifactId} (hid : descriptor.artifactId = some artifactId)
    (h : Exec Shows (context.transfer platform descriptor artifactId).run es (.pure (.ok ()))) :
    Transferred context.jobId descriptor es := by
  obtain ⟨plan, hplan, hstart⟩ := lift_bind_inv (ensureActive_bind_inv h)
  obtain ⟨accepted, start, _, rfl, hstart, haccept⟩ := Exec.ok_bind_inv hstart
  have hstart := request_inv hstart
  split at haccept
  · rename_i haccepted
    obtain ⟨_, chunks, _, rfl, hchunks, hcomplete⟩ := Exec.ok_bind_inv haccept
    obtain ⟨pieces, hchunks, hcount, hsum⟩ := sendChunks_inv hchunks
    obtain ⟨stored, complete, _, rfl, hcomplete, hstore⟩ := Exec.ok_bind_inv hcomplete
    have hcomplete := request_inv hcomplete
    split at hstore
    · rename_i hstored
      obtain ⟨rfl, -⟩ := Exec.pure_inv hstore
      obtain rfl := acceptedBy_eq_true haccepted
      obtain rfl := storedBy_eq_true hstored
      have hle := le_of_artifactPlan hplan
      refine ⟨artifactId, pieces, start, chunks, complete, hid, by simp, hcount ▸ hstart, hchunks, ?_, hcomplete⟩
      omega
    · cases (lift_inv hstore).1
  · cases (lift_inv haccept).1

/-- Whoever holds a stored artifact had it transferred. -/
theorem storeArtifact_inv {artifact : StoredArtifact}
    (h : Exec Shows (context.storeArtifact platform descriptor).run es (.pure (.ok artifact))) :
    ∃ es', es'.Sublist es ∧ Transferred artifact.jobId artifact.descriptor es' := by
  have hvalidate := ensureActive_bind_inv h
  split at hvalidate
  · cases (lift_inv hvalidate).1
  · rename_i artifactId hvalid
    obtain ⟨_, es₁, _, rfl, -, htransfer⟩ := Exec.ok_bind_inv hvalidate
    obtain ⟨_, es₂, _, rfl, hdone, hpure⟩ := Exec.ok_bind_inv htransfer
    obtain ⟨rfl, hx⟩ := Exec.pure_inv hpure
    cases hx
    refine ⟨es₂, ?_, transfer_inv (artifactId_of_validateDescriptor hvalid) hdone⟩
    simp

end PluginSdk
