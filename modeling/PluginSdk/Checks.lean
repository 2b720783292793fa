import PluginSdk.Calls

/-!
# What contexts send

Everything that a context sends has passed the checks of the method that sends it, whatever the method is answered
with (`Operation.program_checked`).
-/

namespace PluginSdk

open Program

/-- What a context may send under a trace. -/
def Payload.Checked (context : ActionContext) (trace : TraceContext) : Payload → Prop
  | .hostCall request =>
    context.hostCallTrace = .ok trace ∧ ∃ call kind, request = ⟨some call⟩ ∧
      HostCallKind.validate call context.host.sessionId = .ok kind
  | .log record => trace = context.trace ∧ ActionContext.validateFields record.fields = .ok ()
  | .artifactStart _ | .artifactChunk _ | .artifactComplete _ => trace = context.trace
  | _ => False

def ContextOp.Checked (context : ActionContext) : ContextOp → Prop
  | .send trace payload | .request trace payload => payload.Checked context trace
  | _ => True

variable {platform : Platform} {context : ActionContext}

/-- What comes after a check may rely on it. -/
theorem ContextProgram.lift_bind_all {α β : Type} {P : ContextOp → Prop} {x : Except SdkError α}
    {f : α → ContextProgram β} (h : ∀ a, x = .ok a → (f a).run.All P) : (ContextProgram.lift x >>= f).run.All P := by
  cases x with
  | error e => trivial
  | ok a => exact h a rfl

private theorem ensureActive_checked : ContextProgram.ensureActive.run.All (ContextOp.Checked context) :=
  ⟨trivial, fun _ => trivial⟩

private theorem request_checked {payload : Payload} (hp : payload.Checked context context.trace) :
    (context.request payload).run.All (ContextOp.Checked context) :=
  ensureActive_checked.except_bind fun _ => ⟨hp, fun _ => trivial⟩

private theorem hostCall_checked (call : HostCall) : (context.hostCall call).run.All (ContextOp.Checked context) := by
  refine ensureActive_checked.except_bind fun _ => ContextProgram.lift_bind_all fun kind hkind => ?_
  refine ContextProgram.lift_bind_all fun trace htrace => ?_
  refine All.except_bind ⟨⟨htrace, call, kind, rfl, hkind⟩, fun _ => trivial⟩ fun payload => ?_
  refine ContextProgram.lift_bind_all fun response _ => ?_
  exact ContextProgram.lift_bind_all fun _ _ => trivial

private theorem log_checked (level : LogLevel) (target message : String) (fields : List (String × ConfigValue)) :
    (context.log level target message fields).run.All (ContextOp.Checked context) := by
  refine ensureActive_checked.except_bind fun _ => ?_
  split
  · trivial
  · split
    · trivial
    · refine ContextProgram.lift_bind_all fun _ hfields => All.except_bind ⟨trivial, fun _ => trivial⟩
        fun timestamp => ?_
      split
      · exact ⟨⟨rfl, hfields⟩, fun _ => trivial⟩
      · trivial

private theorem readToEnd_checked (reads size : Nat) (bytes : List UInt8) :
    (readToEnd reads size bytes).run.All (ContextOp.Checked context) := by
  induction reads generalizing size bytes with
  | zero => trivial
  | succ reads ih =>
    refine All.except_bind ⟨trivial, fun _ => trivial⟩ fun read => ?_
    split
    · trivial
    · split
      · trivial
      · exact ih _ _

private theorem validateSource_checked (descriptor : ArtifactDescriptor) :
    (validateSource platform descriptor).run.All (ContextOp.Checked context) := by
  refine All.except_bind ⟨trivial, fun _ => trivial⟩ fun start => (readToEnd_checked ..).except_bind fun result => ?_
  refine All.except_bind ⟨trivial, fun _ => trivial⟩ fun _ => ?_
  split <;> trivial

private theorem sendChunks_checked (artifactId : PluginArtifactId) (chunkBytes chunks index remaining : Nat) :
    (context.sendChunks artifactId chunkBytes chunks index remaining).run.All (ContextOp.Checked context) := by
  induction chunks generalizing index remaining with
  | zero => trivial
  | succ chunks ih =>
    refine ensureActive_checked.except_bind fun _ => All.except_bind ⟨trivial, fun _ => trivial⟩ fun data => ?_
    exact All.except_bind ⟨rfl, fun _ => trivial⟩ fun _ => ih _ _

private theorem transfer_checked (descriptor : ArtifactDescriptor) (artifactId : PluginArtifactId) :
    (context.transfer platform descriptor artifactId).run.All (ContextOp.Checked context) := by
  refine ensureActive_checked.except_bind fun _ => ContextProgram.lift_bind_all fun plan _ => ?_
  refine All.except_bind (request_checked rfl) fun start => ?_
  split
  · refine (sendChunks_checked ..).except_bind fun _ => All.except_bind (request_checked rfl) fun complete => ?_
    split <;> trivial
  · trivial

/-- Whatever an action asks of its context, and whatever the answers are, only checked payloads are sent. -/
theorem Operation.program_checked (operation : Operation) :
    (operation.program platform context).run.All (ContextOp.Checked context) := by
  cases operation with
  | hostCall call => exact (hostCall_checked call).except_bind fun _ => trivial
  | getConfig path =>
    refine All.except_bind ((hostCall_checked _).except_bind fun response => ?_) fun _ => trivial
    split <;> trivial
  | invokeConfigFunction function arguments =>
    refine All.except_bind ((hostCall_checked _).except_bind fun response => ?_) fun _ => trivial
    split <;> trivial
  | log level target message fields => exact (log_checked level target message fields).except_bind fun _ => trivial
  | storeArtifact descriptor =>
    refine All.except_bind (ensureActive_checked.except_bind fun _ => ?_) fun _ => trivial
    split
    · trivial
    · exact (validateSource_checked _).except_bind fun _ => (transfer_checked ..).except_bind fun _ => trivial

end PluginSdk
