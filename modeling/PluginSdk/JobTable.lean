import PluginSdk.Process

/-!
# The job table

The table of active jobs and the set of tasks are two containers, kept in step by hand.  At each loop head they hold
the same jobs at the same addresses (`Serve.Matched`), while an operation is under way they may differ by its own
job only, and so none of the lookups on which the loop would panic can fail.
-/

namespace PluginSdk

open Lts

/-! ### The two containers under the operations -/

section Keys

variable {active : Table String ActiveJob} {tasks : List Task} {J : String} {job job' : ActiveJob}
  {i : Nat} {t : Task}

theorem length_activeKeys (active : Table String ActiveJob) : (activeKeys active).length = active.size := by
  rw [activeKeys, List.length_map, AList.size_eq_length]

theorem mem_activeKeys : (i, J) ∈ activeKeys active ↔ ∃ job, active.lookup J = some job ∧ job.controller = i := by
  simp only [activeKeys, List.mem_map, Prod.mk.injEq, AList.lookup_eq_some_iff]
  constructor
  · rintro ⟨⟨J', job⟩, hmem, rfl, rfl⟩
    exact ⟨job, hmem, rfl⟩
  · rintro ⟨job, hmem, rfl⟩
    exact ⟨(J, job), hmem, rfl, rfl⟩

theorem nodup_map_snd_activeKeys (active : Table String ActiveJob) : ((activeKeys active).map Prod.snd).Nodup := by
  have h : (activeKeys active).map Prod.snd = active.keys := by
    rw [← AList.map_fst_toPairs, activeKeys, List.map_map]
    rfl
  rw [h]
  exact active.nodupKeys

private theorem activeKeys_insert_new (h : active.lookup J = none) (job : ActiveJob) :
    activeKeys (active.insert J job) = (job.controller, J) :: activeKeys active := by
  rw [activeKeys, AList.toPairs_insert_of_notMem (AList.lookup_eq_none.1 h)]
  rfl

theorem activeKeys_erase (h : active.lookup J = some job) :
    (activeKeys active).Perm ((job.controller, J) :: activeKeys (active.erase J)) :=
  (AList.toPairs_perm_erase h).map _

private theorem activeKeys_insert (h : active.lookup J = some job) (hc : job'.controller = job.controller) :
    (activeKeys (active.insert J job')).Perm (activeKeys active) := by
  have heq : activeKeys (active.insert J job') = (job'.controller, J) :: activeKeys (active.erase J) := by
    rw [activeKeys, AList.toPairs_insert]
    rfl
  rw [heq, hc]
  exact (activeKeys_erase h).symm

theorem activeKeys_mapValues {f : ActiveJob → ActiveJob} (hf : ∀ job, (f job).controller = job.controller) :
    activeKeys (active.mapValues f) = activeKeys active := by
  rw [activeKeys, AList.toPairs_mapValues, List.map_map]
  exact List.map_congr_left fun p _ => by simp [hf]

@[simp] theorem mem_taskKeys : (i, J) ∈ taskKeys tasks ↔ ∃ phase, ⟨i, J, phase⟩ ∈ tasks := by
  simp only [taskKeys, List.mem_map, Prod.mk.injEq]
  constructor
  · rintro ⟨⟨i', J', phase⟩, hmem, rfl, rfl⟩
    exact ⟨phase, hmem⟩
  · rintro ⟨phase, hmem⟩
    exact ⟨_, hmem, rfl, rfl⟩

/-- Joining takes one task out. -/
theorem taskKeys_join {jobs : JobManager} (hnd : ((taskKeys jobs.tasks).map Prod.fst).Nodup) (h : t ∈ jobs.tasks) :
    (taskKeys jobs.tasks).Perm ((t.inst, t.jobId) :: taskKeys (jobs.join t).tasks) := by
  have hrest : ∀ tasks : List Task, (tasks.map (·.inst)).Nodup → t ∈ tasks →
      tasks.Perm (t :: tasks.filter fun u => u.inst != t.inst) := by
    intro tasks
    induction tasks with
    | nil => simp
    | cons u rest ih =>
      intro hnd hmem
      rw [List.map_cons, List.nodup_cons] at hnd
      by_cases hu : u.inst = t.inst
      · have hne : t ∉ rest := fun hmem => hnd.1 (hu ▸ List.mem_map_of_mem hmem)
        obtain rfl : t = u := (List.mem_cons.1 hmem).resolve_right hne
        have hall : rest.filter (fun u => u.inst != t.inst) = rest := by
          refine List.filter_eq_self.2 fun u hu => ?_
          rw [bne_iff_ne]
          exact fun he => hnd.1 (he ▸ List.mem_map_of_mem hu)
        simp [hall]
      · have hmem' : t ∈ rest := (List.mem_cons.1 hmem).resolve_left fun he => hu (he ▸ rfl)
        rw [List.filter_cons_of_pos (by simpa using hu)]
        exact ((ih hnd.2 hmem').cons u).trans (.swap ..)
  have hnd' : (jobs.tasks.map (·.inst)).Nodup := by
    rw [taskKeys, List.map_map] at hnd
    exact hnd
  exact (hrest jobs.tasks hnd' h).map _

end Keys

namespace Serve

/-! ### The invariant -/

/-- How the tasks and the table agree, by the place of the loop. -/
def Matches (s : Serve) : Prop :=
  match s.loop with
  | .head | .sending _ .head | .sending _ (.spawn _) => (taskKeys s.jobs.tasks).Perm (activeKeys s.jobs.active)
  | .sending _ (.remove jobId) => ∃ inst, ((inst, jobId) :: taskKeys s.jobs.tasks).Perm (activeKeys s.jobs.active)
  | .draining _ _ | .returned _ => (taskKeys s.jobs.tasks).Subperm (activeKeys s.jobs.active)
  | .sending _ (.clear _ _) => s.jobs.tasks = []
  | .acknowledging _ _ | .consuming _ _ => s.jobs.tasks = [] ∧ activeKeys s.jobs.active = []
  | .panicked _ => False

structure Matched (s : Serve) : Prop where
  agree : s.Matches
  admitted : ∀ {queue job}, s.loop = .sending queue (.spawn job) →
    s.jobs.active.lookup job.jobId = none ∧ s.jobs.active.size < s.jobs.maximumConcurrentJobs
  nodup : ((activeKeys s.jobs.active).map Prod.fst).Nodup
  fresh : ∀ p ∈ activeKeys s.jobs.active, p.1 < s.spawned
  bounded : s.jobs.active.size ≤ s.jobs.maximumConcurrentJobs

variable {s s' : Serve} {e : ServeEvent}

/-- Every task belongs to an active job, wherever the loop is. -/
theorem Matched.subperm (hm : s.Matched) : (taskKeys s.jobs.tasks).Subperm (activeKeys s.jobs.active) := by
  have h := hm.agree
  unfold Matches at h
  split at h
  · exact h.subperm
  · exact h.subperm
  · exact h.subperm
  · obtain ⟨inst, h⟩ := h
    exact (List.sublist_cons_self ..).subperm.trans h.subperm
  · exact h
  · exact h
  · rw [h]
    exact List.nil_subperm
  · rw [h.1]
    exact List.nil_subperm
  · rw [h.1]
    exact List.nil_subperm
  · exact h.elim

theorem Matched.nodup_tasks (hm : s.Matched) : ((taskKeys s.jobs.tasks).map Prod.fst).Nodup := by
  obtain ⟨l, hl, hsub⟩ := hm.subperm
  exact ((hl.map Prod.fst).nodup_iff).1 (hm.nodup.sublist (hsub.map _))

/-- The job of a task is active, at the address of the task. -/
theorem Matched.lookup_of_task (hm : s.Matched) {t : Task} (ht : t ∈ s.jobs.tasks) :
    ∃ job, s.jobs.active.lookup t.jobId = some job ∧ job.controller = t.inst :=
  mem_activeKeys.1 (hm.subperm.subset (mem_taskKeys.2 ⟨t.phase, ht⟩))

/-- Steps that add no job keep the table in order. -/
private theorem Matched.shrink (hm : s.Matched)
    (hkeys : (activeKeys s'.jobs.active).Subperm (activeKeys s.jobs.active))
    (hmax : s'.jobs.maximumConcurrentJobs = s.jobs.maximumConcurrentJobs) (hspawned : s'.spawned = s.spawned)
    (hagree : s'.Matches)
    (hadm : ∀ {queue job}, s'.loop = .sending queue (.spawn job) →
      s'.jobs.active.lookup job.jobId = none ∧ s'.jobs.active.size < s'.jobs.maximumConcurrentJobs) : s'.Matched where
  agree := hagree
  admitted := hadm
  nodup := by
    obtain ⟨l, hl, hsub⟩ := hkeys
    exact ((hl.map Prod.fst).nodup_iff).1 (hm.nodup.sublist (hsub.map _))
  fresh p hp := hspawned ▸ hm.fresh p (hkeys.subset hp)
  bounded := by
    have h := hkeys.length_le
    rw [length_activeKeys, length_activeKeys] at h
    rw [hmax]
    exact h.trans hm.bounded

/-- The loop returns with the tasks of active jobs at most. -/
private theorem Matched.stop (hm : s.Matched) {r : Except SdkError Timestamp} (hloop : s'.loop = .returned r)
    (hactive : s'.jobs.active = s.jobs.active)
    (htasks : (taskKeys s'.jobs.tasks).Subperm (taskKeys s.jobs.tasks))
    (hmax : s'.jobs.maximumConcurrentJobs = s.jobs.maximumConcurrentJobs) (hspawned : s'.spawned = s.spawned) :
    s'.Matched := by
  refine hm.shrink (hactive ▸ List.Subperm.refl _) hmax hspawned ?_ (by simp [hloop])
  unfold Matches
  rw [hloop, hactive]
  exact htasks.trans hm.subperm

private theorem Frame.matched (hf : Frame s s') (hm : s.Matched) : s'.Matched := by
  refine hm.shrink (hf.active ▸ List.Subperm.refl _) hf.maximum hf.spawned ?_ fun {queue job} h => ?_
  · have h := hm.agree
    have hnil : s.jobs.tasks = [] ↔ s'.jobs.tasks = [] := by
      have hlen := congrArg List.length hf.keys
      simp only [taskKeys, List.length_map] at hlen
      rw [← List.length_eq_zero_iff, ← List.length_eq_zero_iff, hlen]
    unfold Matches at h ⊢
    rw [hf.loop, hf.active, hf.keys, ← hnil]
    exact h
  · rw [hf.active, hf.maximum]
    exact hm.admitted (hf.loop ▸ h)

private theorem Processed.matched {envelope : PluginEnvelope} {call : Option Nat} (hp : Processed s envelope s' call)
    (hloop : s.loop = .head) (hm : s.Matched) : s'.Matched := by
  have hagree : (taskKeys s.jobs.tasks).Perm (activeKeys s.jobs.active) := by
    have h := hm.agree
    unfold Matches at h
    rwa [hloop] at h
  cases hp with
  | failed => exact hm.stop rfl rfl (List.Subperm.refl _) rfl rfl
  | replied => exact hm.shrink (List.Subperm.refl _) rfl rfl (by unfold Matches; rwa [hloop]) (by simp [hloop])
  | accepted _ hok hroom =>
    refine hm.shrink (List.Subperm.refl _) rfl rfl hagree ?_
    rintro queue job ⟨⟩
    exact ⟨hok.inactive, hroom⟩
  | refused => exact hm.shrink (List.Subperm.refl _) rfl rfl hagree (by simp)
  | cancelled _ _ hl =>
    refine hm.shrink (List.Perm.subperm (activeKeys_insert hl ?_)) rfl rfl ?_ (by simp)
    · rfl
    · exact hagree.trans (List.Perm.symm (activeKeys_insert hl rfl))
  | acknowledged => exact hm.shrink (List.Subperm.refl _) rfl rfl hagree (by simp)
  | heartbeat => exact hm.shrink (List.Subperm.refl _) rfl rfl hagree (by simp)
  | shutdown => exact hm.shrink (List.Subperm.refl _) rfl rfl hagree.subperm (by simp)

/-- A joined task is the one that its job is still waiting for. -/
private theorem Matched.join (hm : s.Matched) {i : Nat} {J : String} {result : Except String Output}
    (ht : ⟨i, J, .completed result⟩ ∈ s.jobs.tasks) :
    (taskKeys s.jobs.tasks).Perm ((i, J) :: taskKeys (s.jobs.join ⟨i, J, .completed result⟩).tasks) :=
  taskKeys_join hm.nodup_tasks ht

theorem LoopStep.matched (hs : LoopStep s e s') (hm : s.Matched) : s'.Matched := by
  have hagree := hm.agree
  unfold Matches at hagree
  cases hs with
  | receive hloop => exact (process_processed s _).matched hloop hm
  | hostClosed => exact hm.stop rfl rfl (List.Subperm.refl _) rfl rfl
  | @send o queue next link env hloop =>
    rw [hloop] at hagree
    refine hm.shrink (List.Subperm.refl _) rfl rfl ?_ fun {queue' job} h => ?_
    · cases next <;> exact hagree
    · cases h
      exact hm.admitted hloop
  | sendFailed => exact hm.stop rfl rfl (List.Subperm.refl _) rfl rfl
  | resume hloop =>
    rw [hloop] at hagree
    exact hm.shrink (List.Subperm.refl _) rfl rfl hagree (by simp)
  | @spawn job hloop hinactive =>
    rw [hloop] at hagree
    have hkeys := activeKeys_insert_new hinactive ⟨s.spawned, job.trace, []⟩
    refine ⟨?_, by simp, ?_, ?_, ?_⟩
    · change (taskKeys (s.jobs.tasks ++ [⟨s.spawned, job.jobId, .spawned⟩])).Perm
        (activeKeys (s.jobs.active.insert _ _))
      rw [hkeys, taskKeys, List.map_append]
      exact List.perm_append_comm.trans (hagree.cons _)
    · -- the address is fresh
      change ((activeKeys (s.jobs.active.insert _ _)).map Prod.fst).Nodup
      rw [hkeys, List.map_cons, List.nodup_cons]
      refine ⟨fun hmem => ?_, hm.nodup⟩
      obtain ⟨p, hp, heq⟩ := List.mem_map.1 hmem
      exact absurd (heq ▸ hm.fresh p hp) (lt_irrefl _)
    · change ∀ p ∈ activeKeys (s.jobs.active.insert _ _), p.1 < s.spawned + 1
      rw [hkeys]
      intro p hp
      rcases List.mem_cons.1 hp with rfl | hp
      · exact Nat.lt_succ_self _
      · exact Nat.lt_succ_of_lt (hm.fresh p hp)
    · change (s.jobs.active.insert _ _).size ≤ _
      rw [AList.size_insert_of_notMem (AList.lookup_eq_none.1 hinactive)]
      exact (hm.admitted hloop).2
  | spawnReplaced hloop hactive =>
    rw [(hm.admitted hloop).1] at hactive
    cases hactive
  | @join i J output jobs queue hloop _ ht hsettle =>
    rw [hloop] at hagree
    obtain ⟨job, hl, rfl, -⟩ := JobManager.settle_join hsettle
    have hkeys : (activeKeys (s.jobs.active.insert J { job with cancellations := [] })).Perm
      (activeKeys s.jobs.active) :=
      activeKeys_insert hl rfl
    refine hm.shrink hkeys.subperm rfl rfl ⟨i, ?_⟩ (by simp)
    exact ((hm.join ht).symm.trans hagree).trans hkeys.symm
  | @joinUnknown i J output _ _ ht hsettle =>
    obtain ⟨job, hl, -⟩ := hm.lookup_of_task ht
    rw [JobManager.settle_join_eq_none hsettle] at hl
    cases hl
  | joinFailed _ _ ht =>
    exact hm.stop rfl rfl (((List.sublist_cons_self _ _).subperm).trans (hm.join ht).symm.subperm) rfl rfl
  | joinEmpty hloop hactive htasks =>
    rw [hloop, htasks] at hagree
    have hlen := hagree.length_eq
    rw [length_activeKeys] at hlen
    exact absurd hlen.symm hactive
  | @remove J job hloop hl =>
    rw [hloop] at hagree
    obtain ⟨i, hperm⟩ := hagree
    have hkeys := activeKeys_erase hl
    have hi : job.controller = i := by
      obtain ⟨job', hl', hi⟩ := mem_activeKeys.1 (hperm.subset List.mem_cons_self)
      rw [hl] at hl'
      cases hl'
      exact hi
    refine hm.shrink (((List.sublist_cons_self _ _).subperm).trans hkeys.symm.subperm) rfl rfl ?_ (by simp)
    exact List.Perm.cons_inv (hperm.trans (hi ▸ hkeys))
  | removeUnknown hloop hl =>
    rw [hloop] at hagree
    obtain ⟨i, hperm⟩ := hagree
    obtain ⟨job, hl', -⟩ := mem_activeKeys.1 (hperm.subset List.mem_cons_self)
    rw [hl] at hl'
    cases hl'
  | drain hloop ht =>
    rw [hloop] at hagree
    refine hm.shrink (List.Subperm.refl _) rfl rfl ?_ (by simp [hloop])
    unfold Matches
    rw [hloop]
    exact (((List.sublist_cons_self _ _).subperm).trans (hm.join ht).symm.subperm).trans hagree
  | takeCancellations hloop htasks =>
    have hkeys : activeKeys (s.jobs.takeCancellations).active = activeKeys s.jobs.active :=
      activeKeys_mapValues fun _ => rfl
    exact hm.shrink (hkeys ▸ List.Subperm.refl _) rfl rfl htasks (by simp)
  | clear hloop =>
    rw [hloop] at hagree
    exact hm.shrink List.nil_subperm rfl rfl ⟨hagree, rfl⟩ (by simp)
  | acknowledge hloop =>
    rw [hloop] at hagree
    exact hm.shrink (List.Subperm.refl _) rfl rfl hagree (by simp)
  | acknowledgeFailed => exact hm.stop rfl rfl (List.Subperm.refl _) rfl rfl
  | finish => exact hm.stop rfl rfl (List.Subperm.refl _) rfl rfl
  | finishFailed => exact hm.stop rfl rfl (List.Subperm.refl _) rfl rfl

theorem Step.matched (hs : Step s e s') (hm : s.Matched) : s'.Matched := by
  cases hs with
  | loop hs => exact hs.matched hm
  | task hs => exact hs.frame.matched hm
  | context hs => exact hs.frame.matched hm

theorem matched {setup : Setup} {h : List ServeEvent} (hr : Steps Step (init setup) h s) : s.Matched := by
  refine hr.invariant (fun _ _ _ hs hm => hs.matched hm) ⟨?_, by simp [init], ?_, ?_, ?_⟩
  · exact List.Perm.refl _
  · exact List.nodup_nil
  · simp [init, activeKeys]
  · exact Nat.zero_le _

/-! ### Other jobs -/

private theorem Matched.controller_inj (hm : s.Matched) {J J' : String} {job job' : ActiveJob}
    (hl : s.jobs.active.lookup J = some job) (hl' : s.jobs.active.lookup J' = some job')
    (hc : job.controller = job'.controller) : J = J' := by
  have h := List.inj_on_of_nodup_map hm.nodup (mem_activeKeys.2 ⟨job, hl, rfl⟩) (mem_activeKeys.2 ⟨job', hl', rfl⟩) hc
  exact congrArg Prod.snd h

end Serve

/-- The job that an operation is on. -/
def ServeEvent.job : ServeEvent → Option String
  | .received envelope _ =>
    match envelope.payload with
    | some (.startJob request) => request.jobId.map (·.value)
    | some (.cancelJob request) => request.jobId.map (·.value)
    | _ => none
  | .spawned _ context => some context.jobId
  | .joined _ jobId | .joinFailed _ jobId | .settled jobId | .task _ jobId _ => some jobId
  | _ => none

/-- The operations of a shutdown, which are on all jobs. -/
def ServeEvent.ofShutdown : ServeEvent → Bool
  | .received envelope _ =>
    match envelope.payload with
    | some (.shutdown _) => true
    | _ => false
  | .drained _ _ | .cancellationsTaken | .cleared => true
  | _ => false

/-- The loop takes the next envelope or task. -/
def ServeEvent.takes : ServeEvent → Bool
  | .received _ _ | .hostClosed _ | .joined _ _ | .joinFailed _ _ => true
  | _ => false

namespace Serve

variable {s s' : Serve} {e : ServeEvent}

/-- The entry of a job, and its cancellation value, are the same in both states. -/
def SameJob (s s' : Serve) (J : String) : Prop :=
  s'.jobs.active.lookup J = s.jobs.active.lookup J ∧
    ∀ job, s.jobs.active.lookup J = some job → s'.cells job.controller = s.cells job.controller

private theorem Processed.sameJob {envelope : PluginEnvelope} {call : Option Nat} {J : String} (hm : s.Matched)
    (hp : Processed s envelope s' call) (hshut : ServeEvent.ofShutdown (.received envelope call) = false)
    (hjob : ServeEvent.job (.received envelope call) ≠ some J) : SameJob s s' J := by
  cases hp with
  | @cancelled session trace request jobId job hreq hid hl =>
    have hne : J ≠ jobId := by
      rintro rfl
      simp [ServeEvent.job, hreq.payload, hid] at hjob
    refine ⟨AList.lookup_insert_ne hne, fun job' hl' => ?_⟩
    have hc : job'.controller ≠ job.controller := fun hc => hne (hm.controller_inj hl' hl hc)
    simp [cancelAll, hc]
  | shutdown hreq => simp [ServeEvent.ofShutdown, hreq.payload] at hshut
  | _ => exact ⟨rfl, fun _ _ => rfl⟩

private theorem LoopStep.sameJob {J : String} (hm : s.Matched) (hs : LoopStep s e s') (hshut : e.ofShutdown = false)
    (hjob : e.job ≠ some J) : SameJob s s' J := by
  cases hs with
  | receive => exact (process_processed s _).sameJob hm hshut hjob
  | @spawn job _ hinactive =>
    have hne : J ≠ job.jobId := fun h => hjob (h ▸ rfl)
    refine ⟨AList.lookup_insert_ne hne, fun job' hl => ?_⟩
    have hc : job'.controller ≠ s.spawned := (hm.fresh _ (mem_activeKeys.2 ⟨job', hl, rfl⟩)).ne
    exact Function.update_of_ne hc ..
  | @join i jobId output jobs queue _ _ _ hsettle =>
    obtain ⟨job, -, rfl, -⟩ := JobManager.settle_join hsettle
    have hne : J ≠ jobId := fun h => hjob (h ▸ rfl)
    exact ⟨AList.lookup_insert_ne hne, fun _ _ => rfl⟩
  | @remove jobId =>
    have hne : J ≠ jobId := fun h => hjob (h ▸ rfl)
    exact ⟨AList.lookup_erase_ne hne, fun _ _ => rfl⟩
  | takeCancellations => cases hshut
  | clear => cases hshut
  | _ => exact ⟨rfl, fun _ _ => rfl⟩

theorem TaskStep.sameJob {J : String} (hm : s.Matched) (hs : TaskStep s e s') (hjob : e.job ≠ some J) :
    SameJob s s' J := by
  cases hs with
  | @finish inst jobId result ht =>
    refine ⟨rfl, fun job hl => Function.update_of_ne (fun hc => hjob ?_) ..⟩
    obtain ⟨job', hl', hc'⟩ := hm.lookup_of_task ht
    rw [hm.controller_inj hl hl' (hc.trans hc'.symm)]
    rfl
  | _ => exact ⟨rfl, fun _ _ => rfl⟩

theorem Step.sameJob {J : String} (hm : s.Matched) (hs : Step s e s') (hshut : e.ofShutdown = false)
    (hjob : e.job ≠ some J) : SameJob s s' J := by
  cases hs with
  | loop hs => exact hs.sameJob hm hshut hjob
  | task hs => exact hs.sameJob hm hjob
  | context hs =>
    rw [hs.link]
    exact ⟨rfl, fun _ _ => rfl⟩

/-! ### Admission -/

/-- The request of the envelope is valid, its job is not active, and there is room for it. -/
def Admits (s : Serve) (envelope : PluginEnvelope) : Prop :=
  ∃ trace session request jobId invocation, s.Request envelope trace session (.startJob request) ∧
    s.jobs.Startable request jobId invocation ∧ s.jobs.active.size < s.jobs.maximumConcurrentJobs

/-- The loop is answering a request that concerns no job of the table. -/
def Answering (s : Serve) : Prop :=
  match s.loop with
  | .head | .sending _ .head | .returned _ => True
  | _ => False

/-- The jobs of the table and their tasks are the same in both states. -/
structure SameTable (s s' : Serve) : Prop where
  active : s'.jobs.active = s.jobs.active
  keys : taskKeys s'.jobs.tasks = taskKeys s.jobs.tasks
  spawned : s'.spawned = s.spawned

private theorem Processed.answering {envelope : PluginEnvelope} {call : Option Nat} {request : StartJobRequest}
    (hp : Processed s envelope s' call) (hstart : envelope.payload = some (.startJob request))
    (hno : ¬ s.Admits envelope) (hloop : s.loop = .head) : s'.Answering ∧ SameTable s s' := by
  cases hp with
  | failed => exact ⟨trivial, rfl, rfl, rfl⟩
  | replied => exact ⟨by unfold Answering; simp [hloop], rfl, rfl, rfl⟩
  | accepted hreq hok hroom => exact absurd ⟨_, _, _, _, _, hreq, hok, hroom⟩ hno
  | refused => exact ⟨trivial, rfl, rfl, rfl⟩
  | cancelled hreq => cases hreq.payload_eq hstart
  | acknowledged hreq => cases hreq.payload_eq hstart
  | heartbeat hreq => cases hreq.payload_eq hstart
  | shutdown hreq => cases hreq.payload_eq hstart

/-- Until the loop takes something else, the answer changes nothing in the table. -/
private theorem Step.answering (hm : s.Matched) (hs : Step s e s') (he : e.takes = false) (ha : s.Answering) :
    s'.Answering ∧ SameTable s s' := by
  have hm' := (hs.matched hm).agree
  unfold Answering at ha ⊢
  cases hs with
  | task hs => exact ⟨hs.frame.loop ▸ ha, hs.frame.active, hs.frame.keys, hs.frame.spawned⟩
  | context hs => exact ⟨hs.frame.loop ▸ ha, hs.frame.active, hs.frame.keys, hs.frame.spawned⟩
  | loop hs =>
    cases hs with
    | receive => cases he
    | hostClosed => cases he
    | join => cases he
    | joinFailed => cases he
    | joinUnknown => exact hm'.elim
    | joinEmpty => exact hm'.elim
    | @send o queue next link env hloop =>
      rw [hloop] at ha
      cases next with
      | head => exact ⟨trivial, rfl, rfl, rfl⟩
      | spawn _ => exact ha.elim
      | remove _ => exact ha.elim
      | clear _ _ => exact ha.elim
    | sendFailed => exact ⟨trivial, rfl, rfl, rfl⟩
    | resume => exact ⟨trivial, rfl, rfl, rfl⟩
    | spawn hloop | spawnReplaced hloop | remove hloop | removeUnknown hloop | drain hloop | takeCancellations hloop
    | clear hloop | acknowledge hloop | acknowledgeFailed hloop | finish hloop | finishFailed hloop =>
      rw [hloop] at ha
      exact ha.elim

/-- The handling of a request that is not admitted, up to what the loop takes next. -/
theorem not_admitted {envelope : PluginEnvelope} {call : Option Nat} {request : StartJobRequest} {h : List ServeEvent}
    {u : Serve} (hm : s.Matched) (hs : Step s (.received envelope call) s')
    (hstart : envelope.payload = some (.startJob request)) (hno : ¬ s.Admits envelope) (hr : Steps Step s' h u)
    (hh : ∀ e ∈ h, e.takes = false) : SameTable s u := by
  have hs' := hs
  cases hs with
  | task hs => cases hs
  | context hs => cases hs
  | loop hs =>
    cases hs with
    | receive hloop =>
      obtain ⟨ha, ht⟩ := (process_processed s envelope).answering hstart hno hloop
      have hall : u.Matched ∧ u.Answering ∧ SameTable s u := by
        refine Steps.history (I := fun h u => (∀ e ∈ h, e.takes = false) → u.Matched ∧ u.Answering ∧ SameTable s u)
          (fun _ => ⟨hs'.matched hm, ha, ht⟩) (fun h t e t' _ hs ih hh => ?_) hr hh
        obtain ⟨hm, ha, ht⟩ := ih fun e he => hh e (List.mem_append_left _ he)
        obtain ⟨ha', ht'⟩ := hs.answering hm (hh e (by simp)) ha
        exact ⟨hs.matched hm, ha', ht'.active.trans ht.active, ht'.keys.trans ht.keys, ht'.spawned.trans ht.spawned⟩
      exact hall.2.2

private theorem Processed.maximum {envelope : PluginEnvelope} {call : Option Nat}
    (hp : Processed s envelope s' call) : s'.jobs.maximumConcurrentJobs = s.jobs.maximumConcurrentJobs := by
  cases hp <;> rfl

theorem maximum_eq {setup : Setup} {h : List ServeEvent} (hr : Steps Step (init setup) h s) :
    s.jobs.maximumConcurrentJobs = setup.maximumConcurrentJobs := by
  refine hr.invariant (I := fun s => s.jobs.maximumConcurrentJobs = setup.maximumConcurrentJobs)
    (fun s e s' hs heq => ?_) rfl
  rw [← heq]
  cases hs with
  | task hs => exact hs.frame.maximum
  | context hs => exact hs.frame.maximum
  | loop hs =>
    cases hs with
    | receive => exact (process_processed s _).maximum
    | join _ _ _ hsettle =>
      obtain ⟨job, -, rfl, -⟩ := JobManager.settle_join hsettle
      rfl
    | _ => rfl

/-- The table of active jobs and the set of tasks agree at every loop head, and hold at most the configured number
of jobs; the loop never panics; a request that is otherwise valid is refused exactly when the table is full; a
request that is not admitted spawns no task and leaves the table as it is; and no operation but a shutdown changes
anything about another job. -/
theorem job_table {setup : Setup} {h : List ServeEvent} (hr : Steps Step (init setup) h s) :
    (s.loop = .head → (s.jobs.tasks.map (·.jobId)).Perm s.jobs.active.keys ∧ (s.jobs.tasks.map (·.jobId)).Nodup ∧
      s.jobs.tasks.length ≤ setup.maximumConcurrentJobs) ∧
    (∀ message, s.loop ≠ .panicked message) ∧
    (∀ envelope trace session request jobId invocation, s.loop = .head →
      s.Request envelope trace session (.startJob request) → s.jobs.Startable request jobId invocation →
      ((s.process envelope).1.loop =
        .sending [⟨some envelope.messageId, trace,
          .protocolError (capacityError setup.maximumConcurrentJobs)⟩] .head ↔
          s.jobs.active.size = setup.maximumConcurrentJobs)) ∧
    (∀ envelope call request s₁ h₁ s₂, s.loop = .head → envelope.payload = some (.startJob request) →
      ¬ s.Admits envelope → Step s (.received envelope call) s₁ → Steps Step s₁ h₁ s₂ → (∀ e ∈ h₁, e.takes = false) →
      SameTable s s₂) ∧
    ∀ e s' J, Step s e s' → e.ofShutdown = false → e.job ≠ some J → SameJob s s' J := by
  have hm := matched hr
  have hmax := maximum_eq hr
  refine ⟨fun hloop => ?_, fun message hloop => ?_, ?_, ?_, fun e s' J hs => hs.sameJob hm⟩
  · have hperm := hm.agree
    unfold Matches at hperm
    rw [hloop] at hperm
    have hkeys : (s.jobs.tasks.map (·.jobId)).Perm s.jobs.active.keys := by
      have h := hperm.map Prod.snd
      rw [← AList.map_fst_toPairs]
      simpa [taskKeys, activeKeys, List.map_map, Function.comp_def] using h
    refine ⟨hkeys, hkeys.nodup_iff.2 s.jobs.active.nodupKeys, ?_⟩
    have hlen := hperm.length_eq
    rw [length_activeKeys, taskKeys, List.length_map] at hlen
    rw [hlen, ← hmax]
    exact hm.bounded
  · have h := hm.agree
    unfold Matches at h
    rw [hloop] at h
    exact h
  · intro envelope trace session request jobId invocation _ hreq hok
    rw [process_of_startable hreq hok, ← hmax]
    by_cases hfull : s.jobs.maximumConcurrentJobs ≤ s.jobs.active.size
    · rw [if_pos hfull]
      exact ⟨fun _ => le_antisymm hm.bounded hfull, fun _ => rfl⟩
    · rw [if_neg hfull]
      exact ⟨fun h => (by simp at h), fun h => absurd h.ge hfull⟩
  · intro envelope call request s₁ h₁ s₂ _ hstart hno hs hr₁ hh
    exact not_admitted hm hs hstart hno hr₁ hh

theorem job_table_sampleRun : ∃ s, Steps Step (init sampleSetup) sampleRun s ∧ ∀ message,
    s.loop ≠ .panicked message := by
  obtain ⟨s, hr⟩ := sampleRun_steps
  exact ⟨s, hr, (job_table hr).2.1⟩

end Serve

end PluginSdk
