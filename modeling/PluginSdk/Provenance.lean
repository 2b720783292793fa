import PluginSdk.Account
import PluginSdk.Lifetime

/-!
# The provenance of artifacts

A stored artifact comes from a call of `store_artifact`, whose execution is in the history of the session, and goes
with the output of an action into the queue of the loop.  So every artifact of a succeeded job has been transferred
(`Session.provenance`), wherever the action has it from.
-/

namespace PluginSdk

open Lts Program

variable {platform : Platform} {h : List ServeEvent} {e : ServeEvent}

/-! ### Outputs and updates -/

namespace Serve

variable {s s' : Serve}

/-- The result of a task is the one that its action has ended with. -/
private theorem Step.outputs (hs : Step s e s') {t : Task} (ht : t ∈ s'.jobs.tasks) {output : Output}
    (ho : t.phase.result = some (.ok output)) :
    (∃ u ∈ s.jobs.tasks, u.phase.result = some (.ok output)) ∨
      ∃ inst jobId, e = .task inst jobId (.ended (.ok output)) := by
  rcases hs.result ht ho with ⟨u, hu, -, hresult⟩ | ⟨jobId, he⟩ | ⟨-, hcancelled⟩
  · exact Or.inl ⟨u, hu, hresult⟩
  · exact Or.inr ⟨t.inst, jobId, he⟩
  · cases hcancelled

private theorem Processed.not_remove {envelope : PluginEnvelope} {call : Option Nat}
    (hp : Processed s envelope s' call) (hloop : s.loop = .head) (queue : List Outgoing) (jobId : String) :
    s'.loop ≠ .sending queue (.remove jobId) := by
  cases hp with
  | replied => simp [hloop]
  | failed => simp [fail]
  | _ => simp

/-- What the loop sends before it removes a job is the settlement of the job. -/
private theorem Step.queues (hs : Step s e s') {queue : List Outgoing} {jobId : String}
    (hloop : s'.loop = .sending queue (.remove jobId)) :
    (∃ queue', s.loop = .sending queue' (.remove jobId) ∧ queue ⊆ queue') ∨
      ∃ t ∈ s.jobs.tasks, ∃ output job, t.phase.result = some (.ok output) ∧
        queue = JobManager.settlement jobId job output := by
  cases hs with
  | task hs => exact Or.inl ⟨queue, hs.frame.loop ▸ hloop, List.Subset.refl _⟩
  | context hs => exact Or.inl ⟨queue, hs.frame.loop ▸ hloop, List.Subset.refl _⟩
  | loop hs =>
    cases hs with
    | @receive envelope hhead => exact absurd hloop ((process_processed s envelope).not_remove hhead queue jobId)
    | send hsending =>
      cases hloop
      exact Or.inl ⟨_, hsending, List.subset_cons_self _ _⟩
    | join _ _ ht hsettle =>
      obtain ⟨job, -, rfl, rfl⟩ := JobManager.settle_join hsettle
      cases hloop
      exact Or.inr ⟨_, ht, _, job, rfl, rfl⟩
    | drain hdraining => exact absurd (hdraining.symm.trans hloop) (by simp)
    | _ => cases hloop

end Serve

namespace Session

variable {x x' : Session} {setup : Setup}

/-- The history holds the transfer of the artifact. -/
def IsTransferred (jobId : String) (descriptor : ArtifactDescriptor) (h : List ServeEvent) : Prop :=
  ∃ es, es.Sublist h ∧ Transferred jobId descriptor es

private theorem IsTransferred.mono {jobId : String} {descriptor : ArtifactDescriptor}
    (ht : IsTransferred jobId descriptor h) (e : ServeEvent) : IsTransferred jobId descriptor (h ++ [e]) := by
  obtain ⟨es, hsub, ht⟩ := ht
  exact ⟨es, hsub.trans (List.sublist_append_left _ _), ht⟩

/-- The artifacts of an output are stored. -/
def Holds (x : Session) (output : Output) : Prop :=
  ∀ result, output = .ok result → ∀ a ∈ result.artifacts, a ∈ x.stored

/-- Where artifacts are, and where they come from. -/
structure Provenance (platform : Platform) (h : List ServeEvent) (x : Session) : Prop where
  calls : ∀ call c, x.calls call = some c → c.Accounted platform h call
  stored : ∀ a ∈ x.stored, IsTransferred a.jobId a.descriptor h
  outputs : ∀ t ∈ x.serve.jobs.tasks, ∀ output, t.phase.result = some (.ok output) → x.Holds output
  updates : ∀ queue jobId, x.serve.loop = .sending queue (.remove jobId) → ∀ o ∈ queue, ∀ update,
    o.payload = .jobUpdate update → ∃ output, update = terminalUpdate jobId output ∧ x.Holds output

private theorem Step.stored (hs : Step platform x e x') (hp : Provenance platform h x) :
    ∀ a ∈ x'.stored, a ∈ x.stored ∨ IsTransferred a.jobId a.descriptor h := by
  intro a ha
  cases hs with
  | loop => exact Or.inl (by simpa using ha)
  | @returned call c result hc _ hpure =>
    rcases List.mem_append.1 ha with ha | ha
    · obtain ⟨operation, es, hexec, hsub, -⟩ := hp.calls call c hc
      rw [hpure] at hexec
      unfold Returned.artifacts at ha
      split at ha
      · obtain ⟨es', hsub', ht⟩ := Operation.stored_inv hexec
        rw [List.mem_singleton.1 ha]
        exact Or.inr ⟨es', hsub'.trans hsub, ht⟩
      · cases ha
    · exact Or.inl ha
  | _ => exact Or.inl ha

private theorem Step.stored_subset (hs : Step platform x e x') : x.stored ⊆ x'.stored := by
  intro a ha
  cases hs with
  | loop => simpa using ha
  | returned => exact List.mem_append_right _ ha
  | _ => exact ha

private theorem Step.accounted (hs : Step platform x e x') (hp : Provenance platform h x) :
    ∀ call c, x'.calls call = some c → c.Accounted platform (h ++ [e]) call := by
  intro call c' hc'
  have hkeep : x.calls call = some c' → c'.Accounted platform (h ++ [e]) call :=
    fun hc => (hp.calls call c' hc).mono e
  cases hs with
  | loop =>
    rcases observe_calls hc' with hc | ⟨c, t, reply, answer, rfl, hc, ht, hid, hpayload, rfl⟩
    · exact hkeep hc
    · exact (hp.calls call c hc).deliver ht hid hpayload
  | task => exact hkeep hc'
  | stream => exact hkeep hc'
  | @begin actor _ context operation =>
    rcases setCall_calls hc' with ⟨rfl, heq⟩ | hc
    · cases heq
      exact ⟨operation, [], .nil, List.nil_sublist _, by simp⟩
    · exact hkeep hc
  | call hc hs =>
    rcases setCall_calls hc' with ⟨rfl, heq⟩ | hc
    · cases heq
      exact hs.accounted (hp.calls _ _ hc)
    · exact hkeep hc
  | returned | drop | dropReserved =>
    rcases setCall_calls hc' with ⟨-, heq⟩ | hc
    · cases heq
    · exact hkeep hc

/-- An action ends with artifacts that are stored. -/
private theorem Step.ended {inst : Nat} {jobId : String} {output : Output}
    (hs : Step platform x (.task inst jobId (.ended (.ok output))) x') : x.Holds output := by
  cases hs with
  | loop hs => cases hs
  | stream hs => cases hs
  | call _ hs => cases hs
  | task _ hstored =>
    rintro result rfl a ha
    exact hstored a ha

private theorem Step.keep_provenance (hs : Step platform x e x') (hp : Provenance platform h x) :
    Provenance platform (h ++ [e]) x' := by
  have hholds : ∀ {output}, x.Holds output → x'.Holds output := fun ho result hr a ha =>
    hs.stored_subset (ho result hr a ha)
  refine ⟨hs.accounted hp, fun a ha => ?_, fun t ht output ho => ?_, fun queue jobId hloop o ho update hu => ?_⟩
  · rcases hs.stored hp a ha with ha | ht
    · exact (hp.stored a ha).mono e
    · exact ht.mono e
  · rcases hs.serve.outputs ht ho with ⟨u, hu, hr⟩ | ⟨inst, jobId, rfl⟩
    · exact hholds (hp.outputs u hu output hr)
    · exact hholds hs.ended
  · rcases hs.serve.queues hloop with ⟨queue', hloop', hsub⟩ | ⟨t, ht, output, job, hr, rfl⟩
    · obtain ⟨output, heq, hout⟩ := hp.updates queue' jobId hloop' o (hsub ho) update hu
      exact ⟨output, heq, hholds hout⟩
    · refine ⟨output, ?_, hholds (hp.outputs t ht output hr)⟩
      unfold JobManager.settlement at ho
      split at ho
      · rw [List.mem_singleton.1 ho] at hu
        cases hu
        rfl
      · obtain ⟨c, -, rfl⟩ := List.mem_map.1 ho
        cases hu

theorem provenance_run (hr : Steps (Step platform) (init setup) h x) : Provenance platform h x := by
  refine Steps.history (I := Provenance platform) ⟨?_, ?_, ?_, ?_⟩ (fun h x e x' _ hs hp => hs.keep_provenance hp) hr
  · intro call c hc
    cases hc
  · intro a ha
    cases ha
  · intro t ht
    cases ht
  · intro queue jobId hloop
    cases hloop

/-! ### The artifacts of a job -/

private theorem Step.emitted {actor : Actor} {call : Nat} {envelope : PluginEnvelope}
    (hs : Step platform x (.emitted actor call envelope) x') (hp : Provenance platform h x) :
    ∃ payload, envelope.payload = some payload ∧ payload.OfContext := by
  cases hs with
  | loop hs => cases hs
  | task hs => cases hs
  | stream _ hstream => exact hstream.elim
  | call hc hs =>
    obtain ⟨operation, es, hexec, -⟩ := hp.calls _ _ hc
    have hall := hexec.all (Operation.program_all operation)
    obtain ⟨-, o, k, trace, payload, hprogram, ho, -, hpayload⟩ := hs.emitted_inv
    rw [hprogram] at hall
    rcases ho with rfl | rfl
    all_goals exact ⟨payload, hpayload, hall.1⟩

private theorem terminalUpdate_succeeded {jobId : String} {output : Output}
    (h : (terminalUpdate jobId output).state = .succeeded) :
    ∃ result value, output = .ok result ∧
      result.intoWire jobId = .ok (value, (terminalUpdate jobId output).artifacts) := by
  cases output with
  | error error => cases h
  | ok result =>
    cases hwire : result.intoWire jobId with
    | error error => simp [terminalUpdate, hwire] at h
    | ok wire => exact ⟨result, wire.1, rfl, by simp [terminalUpdate, hwire]⟩

/-- An update on the wire settles a job with what its action has returned. -/
theorem Step.sent_update {envelope : PluginEnvelope} {update : JobUpdate} (hs : Step platform x (.sent envelope) x')
    (hq : x.serve.Queued) (hp : Provenance platform h x) (hpayload : envelope.payload = some (.jobUpdate update)) :
    ∃ jobId output, update.jobId = some ⟨jobId⟩ ∧ update = terminalUpdate jobId output ∧ x.Holds output := by
  rcases Serve.sent_inv hq hs.serve with ⟨o, queue, next, hloop, -, -, ho, -, -, hsends⟩ | ⟨_, _, _, -, -, -, ho⟩
  · have hupdate : o.payload = .jobUpdate update := Option.some.inj (ho.symm.trans hpayload)
    obtain ⟨jobId, rfl, hid⟩ := hsends.update hupdate
    obtain ⟨output, heq, houtput⟩ := hp.updates _ _ hloop o List.mem_cons_self update hupdate
    exact ⟨jobId, output, hid, heq, houtput⟩
  · rw [hpayload] at ho
    cases ho

/-- The artifacts of a succeeded job have been transferred for it, and are listed once each. -/
theorem provenance (hr : Steps (Step platform) (init setup) h x) :
    ∀ h₁ e h₂ envelope update, h = h₁ ++ e :: h₂ → e.enqueued = some envelope →
      envelope.payload = some (.jobUpdate update) → update.state = .succeeded →
      ∃ jobId, update.jobId = some ⟨jobId⟩ ∧ (update.artifacts.map (·.artifactId)).Nodup ∧
        ∀ d ∈ update.artifacts, IsTransferred jobId d h₁ := by
  rintro h₁ e h₂ envelope update rfl henqueued hpayload hstate
  obtain ⟨y, y', hy, hs, -⟩ := hr.split
  have hp := provenance_run hy
  have hq := Serve.queued (run_serve hy)
  cases e with
  | emitted actor call env =>
    obtain rfl : env = envelope := Option.some.inj henqueued
    obtain ⟨payload, hpayload', hcontext⟩ := hs.emitted hp
    rw [hpayload, Option.some.injEq] at hpayload'
    subst hpayload'
    exact hcontext.elim
  | sent env =>
    obtain rfl : env = envelope := Option.some.inj henqueued
    obtain ⟨jobId, output, hid, rfl, houtput⟩ := hs.sent_update hq hp hpayload
    obtain ⟨result, value, rfl, hwire⟩ := terminalUpdate_succeeded hstate
    obtain ⟨-, hartifacts, hjob, hnodup⟩ := ActionResult.intoWire_eq_ok hwire
    refine ⟨jobId, hid, ?_, fun d hd => ?_⟩
    · have hids : (result.artifacts.map (·.artifactId)).Nodup := List.Nodup.of_map (·.value) (by rwa [List.map_map])
      have heq : (result.artifacts.map (·.descriptor)).map
        (·.artifactId) = (result.artifacts.map (·.artifactId)).map some := by
        rw [List.map_map, List.map_map]
        exact List.map_congr_left fun a _ => artifactId_of_validateDescriptor a.valid
      rw [hartifacts, heq]
      exact hids.map (Option.some_injective _)
    · rw [hartifacts] at hd
      obtain ⟨a, ha, rfl⟩ := List.mem_map.1 hd
      exact hjob a ha ▸ hp.stored a (houtput result rfl a ha)
  | _ => cases henqueued

open Serve (sampleJobId sampleSetup sampleStart sampleAccepted sampleReply sampleReply_valid)

def sampleDescriptor : ArtifactDescriptor := ⟨some ⟨sampleJobId⟩, "result.txt", "text/plain", 3, sampleDigest⟩

theorem sampleDescriptor_valid : validateDescriptor sampleDescriptor = .ok ⟨sampleJobId⟩ := by decide +kernel

def sampleArtifact : StoredArtifact := ⟨sampleJobId, sampleDescriptor, ⟨sampleJobId⟩, sampleDescriptor_valid⟩

/-- The future of the action of the sample session. -/
def sampleAction : Actor := ⟨0, some 0⟩

theorem sampleAction_canAct : sampleRunning.serve.CanAct sampleAction := by
  refine ⟨Nat.one_pos, fun inst h => ⟨sampleJobId, ?_⟩⟩
  cases h
  exact List.mem_singleton.2 rfl

/-- A chunk of the sample artifact: the check of the cancellation value, the read of the source and the send. -/
def sampleChunk (id index : Nat) (data : List UInt8) : List ServeEvent :=
  List.replicate 4 (ServeEvent.internal sampleAction 0) ++
    [.emitted sampleAction 0 (sampleEnvelope id (.artifactChunk ⟨some ⟨sampleJobId⟩, index, data⟩))]

/-- The action stores an artifact of three bytes: the checks of its source, the start of its transfer, its chunks,
and its completion. -/
def sampleStoring : List ServeEvent :=
  List.replicate 13 (ServeEvent.internal sampleAction 0) ++
    [ServeEvent.reserved sampleAction 0 4,
      .emitted sampleAction 0 (sampleEnvelope 4 (.artifactStart ⟨some ⟨sampleJobId⟩, some sampleDescriptor, 2⟩)),
      .received (sampleReply 4 4 (.artifactAccepted ⟨some ⟨sampleJobId⟩⟩)) (some 0), .internal sampleAction 0] ++
    sampleChunk 5 0 [1, 2] ++ sampleChunk 6 1 [3] ++ List.replicate 2 (ServeEvent.internal sampleAction 0) ++
    [ServeEvent.reserved sampleAction 0 7, .emitted sampleAction 0
      (sampleEnvelope 7 (.artifactComplete ⟨some ⟨sampleJobId⟩⟩)),
      .received (sampleReply 5 7 (.artifactStored ⟨some ⟨sampleJobId⟩⟩)) (some 0)] ++
    List.replicate 2 (ServeEvent.internal sampleAction 0)

/-- It returns the artifact, and its job is settled with it. -/
def sampleReturned : List ServeEvent :=
  [ServeEvent.received sampleStart none, .sent sampleAccepted, .spawned 0 sampleContext,
    .task 0 sampleJobId .started] ++ sampleStoring ++
    [ServeEvent.task 0 sampleJobId (.ended (.ok (.ok ⟨none, [sampleArtifact]⟩))), .task 0 sampleJobId .finished,
      .task 0 sampleJobId .completed, .joined 0 sampleJobId]

def sampleUpdate : JobUpdate := terminalUpdate sampleJobId (.ok ⟨none, [sampleArtifact]⟩)

def sampleSucceeded : List ServeEvent := sampleReturned ++ [.sent (sampleEnvelope 8 (.jobUpdate sampleUpdate))]

private theorem sampleSucceeded_steps : ∃ u, Steps (Step samplePlatform) (init sampleSetup) sampleSucceeded u := by
  have hact := sampleAction_canAct
  have hbegin : Step samplePlatform sampleRunning (.internal sampleAction 0) _ :=
    @Step.begin _ sampleRunning sampleAction 0 sampleContext (.storeArtifact sampleDescriptor) hact rfl rfl
  have hprogram : (Operation.program samplePlatform sampleContext (.storeArtifact sampleDescriptor)).run = _ :=
    congrArg (fun p => ExceptT.run (p >>= fun artifact => pure (Returned.stored artifact)))
      (ActionContext.storeArtifact_of_valid sampleDescriptor_valid)
  rw [hprogram] at hbegin
  have hrest : ∃ u, Steps (Step samplePlatform) sampleRunning (sampleSucceeded.drop 4) u := by
    refine Steps.exists_cons hbegin ?_
    refine Steps.exists_cons (.of_call (.ensureActive_of_active hact rfl rfl)) ?_
    -- the pass over the source that checks it
    refine @io_steps _ _ _ _ .streamPosition _ _ (Selected.ready (.ok 0)) hact rfl rfl rfl rfl ⟨_, rfl⟩ ?_
    refine @io_steps _ _ _ _ (.read artifactIoBufferBytes) _ _ (Selected.ready (.ok [1, 2, 3])) hact rfl rfl rfl rfl
      ⟨_, rfl, by simp [artifactIoBufferBytes]⟩ ?_
    refine @io_steps _ _ _ _ (.read artifactIoBufferBytes) _ _ (Selected.ready (.ok [])) hact rfl rfl rfl rfl
      ⟨_, rfl, by simp⟩ ?_
    refine @io_steps _ _ _ _ (.seekStart 0) _ _ (Selected.ready (.ok 0)) hact rfl rfl rfl rfl ⟨_, rfl⟩ ?_
    refine Steps.exists_cons (.of_call (.ensureActive_of_active hact rfl rfl)) ?_
    refine Steps.exists_cons (.of_call (.ensureActive_of_active hact rfl rfl)) ?_
    refine request_steps hact rfl rfl rfl rfl rfl rfl rfl rfl (by decide)
      (@sampleReply_valid _ 3 4 _ _ rfl (by decide)) rfl rfl
      rfl ?_
    -- two bytes fit into a chunk
    refine Steps.exists_cons (.of_call (.ensureActive_of_active hact rfl rfl)) ?_
    refine @io_steps _ _ _ _ (.readExact 2) _ _ (Selected.ready (.ok [1, 2])) hact rfl rfl rfl rfl
      ⟨_, rfl, by simp⟩ ?_
    refine Steps.exists_cons (.of_call (.poll hact rfl rfl rfl rfl)) ?_
    refine Steps.exists_cons (.of_link (.emit hact rfl rfl rfl (by decide) rfl)) ?_
    refine Steps.exists_cons (.of_call (.ensureActive_of_active hact rfl rfl)) ?_
    refine @io_steps _ _ _ _ (.readExact 1) _ _ (Selected.ready (.ok [3])) hact rfl rfl rfl rfl ⟨_, rfl, by simp⟩ ?_
    refine Steps.exists_cons (.of_call (.poll hact rfl rfl rfl rfl)) ?_
    refine Steps.exists_cons (.of_link (.emit hact rfl rfl rfl (by decide) rfl)) ?_
    refine Steps.exists_cons (.of_call (.ensureActive_of_active hact rfl rfl)) ?_
    refine request_steps hact rfl rfl rfl rfl rfl rfl rfl rfl (by decide)
      (@sampleReply_valid _ 4 5 _ _ rfl (by decide)) rfl rfl
      rfl ?_
    refine Steps.exists_cons (.of_returned hact rfl) ?_
    refine Steps.exists_cons (.task (.stop (List.mem_singleton.2 rfl)) ?_ ?_) ?_
    · intro a ha
      rw [List.mem_singleton.1 ha]
      exact List.mem_cons_self
    · intro inst _ call c hc
      simp [setCall, sampleRunning] at hc
    refine Steps.exists_cons (.task (.finish (List.mem_singleton.2 rfl)) (by simp [ServeEvent.artifacts])
      (by simp [ServeEvent.drops])) ?_
    refine Steps.exists_cons (.task (.complete (List.mem_singleton.2 rfl)) (by simp [ServeEvent.artifacts])
      (by simp [ServeEvent.drops])) ?_
    refine Steps.exists_cons (.loop (.join rfl (by decide) (List.mem_singleton.2 rfl) rfl)) ?_
    exact ⟨_, .single (.loop (.send rfl rfl (by decide) rfl))⟩
  obtain ⟨u, hu⟩ := hrest
  exact ⟨u, sampleRunning_steps.trans hu⟩

theorem provenance_sampleStored : IsTransferred sampleJobId sampleDescriptor sampleReturned := by
  obtain ⟨u, hu⟩ := sampleSucceeded_steps
  obtain ⟨jobId, hid, -, hstored⟩ := provenance hu sampleReturned _ [] _ sampleUpdate rfl rfl rfl rfl
  cases hid
  exact hstored sampleDescriptor List.mem_cons_self

end Session

end PluginSdk
