import PluginSdk.Window

/-!
# The life of an action

The address of a job names its action for the whole run.  Once the task of an action has left the set of tasks, its
future has returned or has been dropped, its cancellation value has left `active`, and its future makes no step any
more.
-/

namespace PluginSdk

open Lts

/-- The action whose own future or supervisor task makes the step. -/
def ServeEvent.own : ServeEvent → Option Nat
  | .task inst _ _ => some inst
  | .reserved actor _ _ | .emitted actor _ _ | .refused actor _ _ | .internal actor _ =>
    actor.future
  | _ => none

/-- The action's future has returned or panicked, or has been dropped. -/
def EndedIn (inst : Nat) (h : List ServeEvent) : Prop :=
  ∃ jobId, (∃ result, .task inst jobId (.ended result) ∈ h) ∨ .task inst jobId .aborted ∈ h

private theorem EndedIn.append {inst : Nat} {h : List ServeEvent} (he : EndedIn inst h) (h' : List ServeEvent) :
    EndedIn inst (h ++ h') := by
  obtain ⟨jobId, ⟨result, he⟩ | he⟩ := he
  · exact ⟨jobId, Or.inl ⟨result, List.mem_append_left _ he⟩⟩
  · exact ⟨jobId, Or.inr (List.mem_append_left _ he)⟩

/-- The action's future is gone. -/
def TaskPhase.IsOver : TaskPhase → Prop
  | .ended _ | .finished _ | .completed _ => True
  | .spawned | .running => False

/-- The finish guard is gone too. -/
def TaskPhase.IsFinished : TaskPhase → Prop
  | .finished _ | .completed _ => True
  | .spawned | .running | .ended _ => False

private theorem cancelAll_ne_active {cells : Nat → CancellationValue} {controllers : List Nat} {i : Nat}
    (h : cells i ≠ .active ∨ i ∈ controllers) : cancelAll cells controllers i ≠ .active := by
  unfold cancelAll
  by_cases hi : i ∈ controllers
  · rw [if_pos hi]
    exact CancellationValue.cancel_ne_active _
  · rw [if_neg hi]
    exact h.resolve_right hi

namespace Serve

variable {s s' : Serve} {e : ServeEvent} {i : Nat} {h : List ServeEvent}

/-- The task of the action has been joined. -/
def Over (i : Nat) (s : Serve) : Prop := i < s.spawned ∧ ∀ jobId, (i, jobId) ∉ taskKeys s.jobs.tasks

private theorem taskKeys_join_subset (jobs : JobManager) (task : Task) :
    taskKeys (jobs.join task).tasks ⊆ taskKeys jobs.tasks :=
  List.map_subset _ (List.filter_sublist.subset)

theorem mem_setPhase {inst : Nat} {phase : TaskPhase} {t : Task} (ht : t ∈ (s.setPhase inst phase).jobs.tasks) :
    t.inst = inst ∧ t.phase = phase ∨ t ∈ s.jobs.tasks := by
  obtain ⟨u, hu, rfl⟩ := List.mem_map.1 ht
  by_cases hi : u.inst = inst
  · rw [if_pos hi]
    exact Or.inl ⟨hi, rfl⟩
  · rw [if_neg hi]
    exact Or.inr hu

private theorem LoopStep.mem_tasks (hs : LoopStep s e s') {t : Task} (ht : t ∈ s'.jobs.tasks) :
    t ∈ s.jobs.tasks ∨ t.phase = .spawned := by
  have hjoin : ∀ {jobs : JobManager} {task : Task}, jobs.tasks = (s.jobs.join task).tasks → t ∈ jobs.tasks →
      t ∈ s.jobs.tasks := by
    intro jobs task htasks hmem
    rw [htasks] at hmem
    exact (List.mem_filter.1 hmem).1
  cases hs with
  | receive =>
    obtain ⟨htasks, -⟩ := (process_processed s _).tasks
    exact Or.inl (htasks ▸ ht)
  | spawn =>
    rcases List.mem_append.1 ht with ht | ht
    · exact Or.inl ht
    · rw [List.mem_singleton.1 ht]
      exact Or.inr rfl
  | join _ _ _ hsettle =>
    obtain ⟨job, -, rfl, -⟩ := JobManager.settle_join hsettle
    exact Or.inl (hjoin rfl ht)
  | joinFailed => exact Or.inl (hjoin rfl ht)
  | drain => exact Or.inl (hjoin rfl ht)
  | _ => exact Or.inl ht

/-- A task gets its result when its action ends or when it is aborted, and keeps it. -/
theorem Step.result (hs : Step s e s') {t : Task} (ht : t ∈ s'.jobs.tasks) {result : Except String Output}
    (hresult : t.phase.result = some result) :
    (∃ u ∈ s.jobs.tasks, u.inst = t.inst ∧ u.phase.result = some result) ∨
      (∃ jobId, e = .task t.inst jobId (.ended result)) ∨ s.Aborting ∧ result = .error "task was cancelled" := by
  have hphase : ∀ {inst : Nat} {phase : TaskPhase}, t ∈ (s.setPhase inst phase).jobs.tasks →
      (t.inst = inst → phase.result = some result →
        (∃ u ∈ s.jobs.tasks, u.inst = inst ∧ u.phase.result = some result) ∨
        (∃ jobId, e = .task inst jobId (.ended result)) ∨ s.Aborting ∧ result = .error "task was cancelled") →
      (∃ u ∈ s.jobs.tasks, u.inst = t.inst ∧ u.phase.result = some result) ∨
        (∃ jobId, e = .task t.inst jobId (.ended result)) ∨ s.Aborting ∧ result = .error "task was cancelled" := by
    intro inst phase hmem hnew
    rcases mem_setPhase hmem with ⟨hinst, rfl⟩ | hmem
    · rw [hinst]
      exact hnew hinst hresult
    · exact Or.inl ⟨t, hmem, rfl, hresult⟩
  cases hs with
  | context hs =>
    rw [hs.link] at ht
    exact Or.inl ⟨t, ht, rfl, hresult⟩
  | loop hs =>
    rcases hs.mem_tasks ht with hmem | hspawned
    · exact Or.inl ⟨t, hmem, rfl, hresult⟩
    · rw [hspawned] at hresult
      cases hresult
  | task hs =>
    cases hs with
    | start => exact hphase ht fun _ hr => by cases hr
    | act => exact Or.inl ⟨t, ht, rfl, hresult⟩
    | stop =>
      refine hphase ht fun _ hr => ?_
      cases hr
      exact Or.inr (Or.inl ⟨_, rfl⟩)
    | abort ha | abortSpawned ha =>
      refine hphase ht fun _ hr => ?_
      cases hr
      exact Or.inr (Or.inr ⟨ha, rfl⟩)
    | finish hmem | complete hmem => exact hphase ht fun _ hr => Or.inl ⟨_, hmem, rfl, hr⟩

/-! ### A joined action -/

private theorem TaskStep.mem {inst : Nat} (hs : TaskStep s e s') (he : e.own = some inst) :
    ∃ jobId, (inst, jobId) ∈ taskKeys s.jobs.tasks := by
  cases hs with
  | start ht | act ht | stop ht | abort _ ht | abortSpawned _ ht | finish ht | complete ht =>
    cases he
    exact ⟨_, mem_taskKeys.2 ⟨_, ht⟩⟩

theorem ContextStep.mem {inst : Nat} (hs : ContextStep s e s') (he : e.own = some inst) :
    ∃ jobId, (inst, jobId) ∈ taskKeys s.jobs.tasks := by
  have hact : ∀ actor : Actor, s.CanAct actor → actor.future = some inst →
      ∃ jobId, (inst, jobId) ∈ taskKeys s.jobs.tasks := by
    intro actor hc he
    obtain ⟨jobId, ht⟩ := hc.2 inst he
    exact ⟨jobId, mem_taskKeys.2 ⟨_, ht⟩⟩
  cases hs with
  | internal hc | emit hc | emitFailed hc | reserve hc | reserveFailed hc | commit hc | commitFailed hc =>
    exact hact _ hc he
  | _ => cases he

/-- The tasks only shrink, apart from a new one at a fresh address. -/
theorem LoopStep.tasks (hs : LoopStep s e s') :
    s.spawned ≤ s'.spawned ∧ ∀ p ∈ taskKeys s'.jobs.tasks, p ∈ taskKeys s.jobs.tasks ∨ p.1 = s.spawned := by
  have hsub : taskKeys s'.jobs.tasks ⊆ taskKeys s.jobs.tasks → s'.spawned = s.spawned →
      s.spawned ≤ s'.spawned ∧ ∀ p ∈ taskKeys s'.jobs.tasks, p ∈ taskKeys s.jobs.tasks ∨ p.1 = s.spawned :=
    fun hsub hspawned => ⟨hspawned.ge, fun p hp => Or.inl (hsub hp)⟩
  cases hs with
  | receive =>
    obtain ⟨htasks, hspawned⟩ := (process_processed s _).tasks
    exact hsub (by rw [htasks]; exact List.Subset.refl _) hspawned
  | spawn =>
    refine ⟨Nat.le_succ _, fun p hp => ?_⟩
    simp only [JobManager.spawn, taskKeys, List.map_append, List.mem_append, List.map_cons, List.map_nil,
      List.mem_singleton] at hp
    rcases hp with hp | rfl
    · exact Or.inl hp
    · exact Or.inr rfl
  | join _ _ _ hsettle =>
    obtain ⟨job, -, rfl, -⟩ := JobManager.settle_join hsettle
    exact hsub (taskKeys_join_subset _ _) rfl
  | joinFailed => exact hsub (taskKeys_join_subset _ _) rfl
  | drain => exact hsub (taskKeys_join_subset _ _) rfl
  | _ => exact hsub (List.Subset.refl _) rfl

/-- A joined action stays joined, and makes no step. -/
theorem Step.over (hs : Step s e s') (ho : Over i s) : Over i s' ∧ e.own ≠ some i := by
  have hframe : Frame s s' → Over i s' := fun hf => ⟨hf.spawned ▸ ho.1, fun jobId => hf.keys ▸ ho.2 jobId⟩
  cases hs with
  | task hs =>
    refine ⟨hframe hs.frame, fun he => ?_⟩
    obtain ⟨jobId, hmem⟩ := hs.mem he
    exact ho.2 jobId hmem
  | context hs =>
    refine ⟨hframe hs.frame, fun he => ?_⟩
    obtain ⟨jobId, hmem⟩ := hs.mem he
    exact ho.2 jobId hmem
  | loop hs =>
    obtain ⟨hspawned, htasks⟩ := hs.tasks
    refine ⟨⟨lt_of_lt_of_le ho.1 hspawned, fun jobId hmem => ?_⟩, by cases hs <;> simp [ServeEvent.own]⟩
    rcases htasks _ hmem with hmem | heq
    · exact ho.2 jobId hmem
    · exact absurd ho.1 (by rw [show i = s.spawned from heq]; exact lt_irrefl _)

theorem over_run {u : Serve} (hr : Steps Step s h u) (ho : Over i s) : Over i u ∧ ∀ e ∈ h, e.own ≠ some i :=
  hr.events (fun _ _ _ hs ho => hs.over ho) ho

/-! ### What an action has been through -/

structure Lifetimes (h : List ServeEvent) (s : Serve) : Prop where
  ended : ∀ t ∈ s.jobs.tasks, t.phase.IsOver → EndedIn t.inst h
  left : s.Live → ∀ t ∈ s.jobs.tasks, t.phase.IsFinished → s.cells t.inst ≠ .active
  shut : s.loop.shutdown ≠ none → ∀ p ∈ activeKeys s.jobs.active, s.cells p.1 ≠ .active
  finished : s.Live → ∀ i, Over i s → s.cells i ≠ .active ∧ EndedIn i h

theorem Matched.inst_lt (hm : s.Matched) {t : Task} (ht : t ∈ s.jobs.tasks) : t.inst < s.spawned :=
  hm.fresh _ (hm.subperm.subset (mem_taskKeys.2 ⟨t.phase, ht⟩))

/-- A step that ends no action and joins none, or joins one that has been through everything. -/
private theorem Lifetimes.keep (hl : Lifetimes h s) (hm : s.Matched)
    (htasks : ∀ t ∈ s'.jobs.tasks, t ∈ s.jobs.tasks ∨ ¬ t.phase.IsOver)
    (hcells : ∀ i < s.spawned, s.cells i ≠ .active → s'.cells i ≠ .active) (hlive : s'.Live → s.Live)
    (hshut : s'.loop.shutdown ≠ none → ∀ p ∈ activeKeys s'.jobs.active, s'.cells p.1 ≠ .active)
    (hover : s'.Live → ∀ i, Over i s' → Over i s ∨ s.cells i ≠ .active ∧ EndedIn i h ∧ i < s.spawned) :
    Lifetimes (h ++ [e]) s' := by
  refine ⟨fun t ht ho => ?_, fun hl' t ht hf => ?_, hshut, fun hl' i ho => ?_⟩
  · exact (hl.ended t ((htasks t ht).resolve_right fun hn => hn ho) ho).append [e]
  · have hmem : t ∈ s.jobs.tasks := by
      refine (htasks t ht).resolve_right fun hn => hn ?_
      cases hp : t.phase <;> simp_all [TaskPhase.IsOver, TaskPhase.IsFinished]
    exact hcells _ (hm.inst_lt hmem) (hl.left (hlive hl') t hmem hf)
  · rcases hover hl' i ho with ho | ⟨hc, he, hi⟩
    · obtain ⟨hc, he⟩ := hl.finished (hlive hl') i ho
      exact ⟨hcells i ho.1 hc, he.append [e]⟩
    · exact ⟨hcells i hi hc, he.append [e]⟩

/-- A step of a task that goes to another phase. -/
private theorem Lifetimes.phase (hl : Lifetimes h s) {inst : Nat} {phase : TaskPhase}
    {cells : Nat → CancellationValue} (hcells : ∀ i, s.cells i ≠ .active → cells i ≠ .active)
    (hended : phase.IsOver → EndedIn inst (h ++ [e])) (hleft : s.Live → phase.IsFinished → cells inst ≠ .active) :
    Lifetimes (h ++ [e]) { s.setPhase inst phase with cells } := by
  refine ⟨fun t ht ho => ?_, fun hlive t ht hf => ?_, fun hs p hp => ?_, fun hlive i ho => ?_⟩
  · rcases mem_setPhase ht with ⟨rfl, rfl⟩ | ht
    · exact hended ho
    · exact (hl.ended t ht ho).append [e]
  · rcases mem_setPhase ht with ⟨rfl, rfl⟩ | ht
    · exact hleft hlive hf
    · exact hcells _ (hl.left hlive t ht hf)
  · exact hcells _ (hl.shut hs p hp)
  · have ho' : Over i s := ⟨ho.1, fun jobId => by
      have h := ho.2 jobId
      rwa [show taskKeys _ = _ from taskKeys_setPhase s inst phase] at h⟩
    obtain ⟨hc, he⟩ := hl.finished hlive i ho'
    exact ⟨hcells i hc, he.append [e]⟩

private theorem TaskStep.lifetimes (hm : s.Matched) (hs : TaskStep s e s') (hl : Lifetimes h s) :
    Lifetimes (h ++ [e]) s' := by
  cases hs with
  | start ht => exact hl.phase (fun _ hc => hc) (fun ho => ho.elim) fun _ hf => hf.elim
  | act => exact hl.keep hm (fun t ht => Or.inl ht) (fun _ _ hc => hc) id hl.shut fun _ i ho => Or.inl ho
  | @stop inst jobId result ht =>
    refine hl.phase (fun _ hc => hc) (fun _ => ⟨jobId, Or.inl ⟨result, by simp⟩⟩) fun _ hf => hf.elim
  | @abort inst jobId ha ht =>
    refine hl.phase (fun _ hc => hc) (fun _ => ⟨jobId, Or.inr (by simp)⟩) fun _ hf => hf.elim
  | @abortSpawned inst jobId ha ht =>
    refine hl.phase (fun _ hc => hc) (fun _ => ⟨jobId, Or.inr (by simp)⟩) fun hlive _ => ?_
    have hshut : s.loop.shutdown ≠ none := by
      unfold Aborting at ha
      unfold Live at hlive
      split at ha
      · rename_i hloop
        rw [hloop]
        simp [Loop.shutdown]
      · rename_i hloop
        rw [hloop] at hlive
        exact hlive.elim
      · rename_i hloop
        rw [hloop] at hlive
        exact hlive.elim
      · exact ha.elim
    exact hl.shut hshut _ (hm.subperm.subset (mem_taskKeys.2 ⟨_, ht⟩))
  | @finish inst jobId result ht =>
    refine hl.phase (fun j hc => ?_) (fun _ => (hl.ended _ ht trivial).append [_]) fun _ _ => ?_
    · by_cases hj : j = inst
      · subst hj
        rw [Function.update_self]
        exact CancellationValue.finish_ne_active _
      · rwa [Function.update_of_ne hj]
    · rw [Function.update_self]
      exact CancellationValue.finish_ne_active _
  | @complete inst jobId result ht =>
    exact hl.phase (fun _ hc => hc) (fun _ => (hl.ended _ ht trivial).append [_]) fun hlive _ =>
      hl.left hlive _ ht trivial

private theorem Processed.cells {envelope : PluginEnvelope} {call : Option Nat}
    (hp : Processed s envelope s' call) {i : Nat} (hc : s.cells i ≠ .active) : s'.cells i ≠ .active := by
  cases hp with
  | cancelled => exact cancelAll_ne_active (Or.inl hc)
  | shutdown => exact cancelAll_ne_active (Or.inl hc)
  | _ => exact hc

private theorem Processed.shut {envelope : PluginEnvelope} {call : Option Nat} (hp : Processed s envelope s' call)
    (hloop : s.loop = .head) (hshut : s'.loop.shutdown ≠ none) :
    ∀ p ∈ activeKeys s'.jobs.active, s'.cells p.1 ≠ .active := by
  cases hp with
  | shutdown =>
    intro p hp
    refine cancelAll_ne_active (Or.inr ?_)
    obtain ⟨entry, hentry, rfl⟩ := List.mem_map.1 hp
    exact List.mem_map_of_mem hentry
  | replied => simp [hloop, Loop.shutdown] at hshut
  | _ => exact absurd rfl hshut

/-- Joining a completed task. -/
private theorem over_join {result : Except String Output} {inst : Nat} {jobId : String} (hl : Lifetimes h s)
    (hm : s.Matched) (hlive : s.Live) (ht : ⟨inst, jobId, .completed result⟩ ∈ s.jobs.tasks)
    {j : Nat} (ho : Over j s') (hspawned : s'.spawned = s.spawned)
    (htasks : s'.jobs.tasks = (s.jobs.join ⟨inst, jobId, .completed result⟩).tasks) :
    Over j s ∨ s.cells j ≠ .active ∧ EndedIn j h ∧ j < s.spawned := by
  by_cases hj : j = inst
  · subst hj
    exact Or.inr ⟨hl.left hlive _ ht trivial, hl.ended _ ht trivial, hm.inst_lt ht⟩
  · refine Or.inl ⟨hspawned ▸ ho.1, fun jobId' hmem => ?_⟩
    rcases List.mem_cons.1 ((taskKeys_join hm.nodup_tasks ht).subset hmem) with heq | hmem
    · exact hj (congrArg Prod.fst heq)
    · exact ho.2 jobId' (htasks ▸ hmem)

private theorem LoopStep.lifetimes (hm : s.Matched) (hs : LoopStep s e s') (hl : Lifetimes h s) :
    Lifetimes (h ++ [e]) s' := by
  have hlive := hs.live
  -- most steps leave the tasks and the values alone
  have hsame : s'.jobs.tasks = s.jobs.tasks → s'.spawned = s.spawned →
      (∀ i, s.cells i ≠ .active → s'.cells i ≠ .active) →
      (s'.loop.shutdown ≠ none → ∀ p ∈ activeKeys s'.jobs.active, s'.cells p.1 ≠ .active) →
      Lifetimes (h ++ [e]) s' := by
    intro htasks hspawned hcells hshut
    refine hl.keep hm (fun t ht => Or.inl (htasks ▸ ht)) (fun i _ hc => hcells i hc) (fun _ => hlive) hshut
      fun _ i ho => Or.inl ⟨hspawned ▸ ho.1, fun jobId => htasks ▸ ho.2 jobId⟩
  have hsub : ∀ task : Task, ∀ t ∈ (s.jobs.join task).tasks, t ∈ s.jobs.tasks :=
    fun _ _ ht => List.mem_of_mem_filter ht
  cases hs with
  | @receive envelope hloop =>
    have hp := process_processed s envelope
    exact hsame hp.tasks.1 hp.tasks.2 (fun i hc => hp.cells hc) (hp.shut hloop)
  | @send o queue next link env hloop =>
    refine hsame rfl rfl (fun _ hc => hc) fun hs => hl.shut ?_
    rw [hloop]
    cases next <;> exact hs
  | @spawn job hloop =>
    refine hl.keep hm (fun t ht => ?_) (fun i hi hc => ?_) (fun _ => hlive) (fun hs => absurd rfl hs) fun _ i ho => ?_
    · rcases List.mem_append.1 ht with ht | ht
      · exact Or.inl ht
      · rw [List.mem_singleton.1 ht]
        exact Or.inr id
    · change Function.update s.cells s.spawned .active i ≠ .active
      rwa [Function.update_of_ne hi.ne]
    · have hkeys : taskKeys (s.jobs.spawn job s.spawned).tasks = taskKeys s.jobs.tasks ++
        [(s.spawned, job.jobId)] := by
        simp [JobManager.spawn, taskKeys]
      have hno : ∀ jobId, (i, jobId) ∉ taskKeys s.jobs.tasks ++ [(s.spawned, job.jobId)] := fun jobId =>
        hkeys ▸ ho.2 jobId
      have hlt : i < s.spawned + 1 := ho.1
      have hne : i ≠ s.spawned := by
        rintro rfl
        exact hno job.jobId (by simp)
      exact Or.inl ⟨by omega, fun jobId hmem => hno jobId (List.mem_append_left _ hmem)⟩
  | @join inst jobId output jobs queue hloop _ ht hsettle =>
    obtain ⟨job, -, rfl, -⟩ := JobManager.settle_join hsettle
    exact hl.keep hm (fun t ht => Or.inl (hsub _ t ht)) (fun _ _ hc => hc) (fun _ => hlive) (fun hs => absurd rfl hs)
      fun _ i ho => over_join hl hm hlive ht ho rfl rfl
  | joinFailed _ _ ht =>
    exact hl.keep hm (fun t ht => Or.inl (hsub _ t ht)) (fun _ _ hc => hc) (fun _ => hlive) (fun hs => absurd rfl hs)
      fun _ i ho => over_join hl hm hlive ht ho rfl rfl
  | drain hloop ht =>
    exact hl.keep hm (fun t ht => Or.inl (hsub _ t ht)) (fun _ _ hc => hc) (fun _ => hlive) (fun hs => hl.shut hs)
      fun _ i ho => over_join hl hm hlive ht ho rfl rfl
  | takeCancellations hloop =>
    refine hsame rfl rfl (fun _ hc => hc) fun _ => ?_
    have hkeys : activeKeys s.jobs.takeCancellations.active = activeKeys s.jobs.active :=
      activeKeys_mapValues fun _ => rfl
    rw [hkeys]
    exact hl.shut (by rw [hloop]; simp [Loop.shutdown])
  | clear => exact hsame rfl rfl (fun _ hc => hc) fun _ p hp => by cases hp
  | _ => exact hsame rfl rfl (fun _ hc => hc) fun hs => absurd rfl hs

private theorem Step.lifetimes (hm : s.Matched) (hs : Step s e s') (hl : Lifetimes h s) :
    Lifetimes (h ++ [e]) s' := by
  cases hs with
  | loop hs => exact hs.lifetimes hm hl
  | task hs => exact hs.lifetimes hm hl
  | context hs =>
    rw [hs.link]
    exact hl.keep hm (fun t ht => Or.inl ht) (fun _ _ hc => hc) id hl.shut fun _ i ho => Or.inl ho

theorem lifetimes {setup : Setup} (hr : Steps Step (init setup) h s) : Lifetimes h s := by
  refine Steps.history (I := Lifetimes) ⟨?_, ?_, ?_, ?_⟩ (fun h s e s' hr hs hl => hs.lifetimes (matched hr) hl) hr
  · simp [init]
  · simp [init]
  · simp [init, Loop.shutdown]
  · intro _ i ho
    exact absurd ho.1 (Nat.not_lt_zero i)

end Serve

end PluginSdk
