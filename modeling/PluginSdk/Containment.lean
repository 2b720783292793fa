import PluginSdk.Supervisor
import PluginSdk.Terminal
import PluginSdk.Lifetime
import PluginSdk.Session

/-!
# Containment of panics

The serve loop with the supervisors of its actions.  A running task steps with the conduct of its action, and ends
with what `run_action` comes to: with an output, or with a join error, unless the process is aborted.  Panics are
contained in a run if and only if every conduct of it is (`Supervised.contains_iff`).
-/

namespace PluginSdk

open Lts

variable {V : Type}

/-- The serve loop, and the supervisors by the addresses of their jobs. -/
structure Supervised (V : Type) where
  serve : Serve
  supervisors : Nat → Supervisor V

inductive SupervisedEvent (V : Type)
  | serve (e : ServeEvent)
  | conduct (inst : Nat) (jobId : String) (c : Conduct V)

/-- A running action makes a step, or ends. -/
def ServeEvent.OfConduct : ServeEvent → Prop
  | .task _ _ .acted | .task _ _ (.ended _) => True
  | _ => False

/-- The result of the task of a supervisor; an escaped panic makes it a join error. -/
def Supervisor.result (joinError : PanicPayload V → String) : Unwind (PanicPayload V) Output →
    Option (Except String Output)
  | .returns output => some (.ok output)
  | .panics payload => some (.error (joinError payload))
  | .aborts => none

/-- What the task of a supervisor does. -/
def Supervisor.event (joinError : PanicPayload V → String) : Supervisor V → Option TaskEvent
  | .ended outcome => (Supervisor.result joinError outcome).map .ended
  | .spawned | .polling => some .acted

private theorem Supervisor.event_eq_some {joinError : PanicPayload V → String} {sup : Supervisor V} {te : TaskEvent}
    (h : sup.event joinError = some te) :
    (te = .acted ∧ ∀ outcome, sup ≠ .ended outcome) ∨
      ∃ outcome result, sup = .ended outcome ∧ Supervisor.result joinError outcome = some result ∧
      te = .ended result := by
  cases sup with
  | spawned | polling =>
    cases h
    exact Or.inl ⟨rfl, fun outcome heq => by cases heq⟩
  | ended outcome =>
    obtain ⟨result, hresult, rfl⟩ := Option.map_eq_some_iff.1 h
    exact Or.inr ⟨outcome, result, rfl, hresult, rfl⟩

namespace SupervisedEvent

def job : SupervisedEvent V → Option String
  | serve e => e.job
  | conduct _ jobId _ => some jobId

def ofShutdown : SupervisedEvent V → Bool
  | serve e => e.ofShutdown
  | conduct _ _ _ => false

end SupervisedEvent

namespace Supervised

def init (setup : Setup) : Supervised V := ⟨.init setup, fun _ => .spawned⟩

/-- The process has not been aborted. -/
def Alive (x : Supervised V) : Prop := ∀ inst, x.supervisors inst ≠ .ended .aborts

def setSupervisor (x : Supervised V) (inst : Nat) (sup : Supervisor V) : Supervised V :=
  { x with supervisors := Function.update x.supervisors inst sup }

private theorem Alive.setSupervisor {x : Supervised V} (ha : x.Alive) {sup : Supervisor V}
    (hsup : sup ≠ .ended .aborts) (inst : Nat) : (x.setSupervisor inst sup).Alive := by
  intro i
  change Function.update x.supervisors inst sup i ≠ _
  by_cases hi : i = inst
  · subst hi
    rwa [Function.update_self]
  · rw [Function.update_of_ne hi]
    exact ha i

variable [DropValue V] (joinError : PanicPayload V → String)

inductive Step : Supervised V → SupervisedEvent V → Supervised V → Prop
  | serve {x : Supervised V} {e : ServeEvent} {serve : Serve} : x.Alive → ¬ e.OfConduct → Serve.Step x.serve e serve →
      Step x (.serve e) { x with serve }
  | conduct {x : Supervised V} {inst : Nat} {jobId : String} {c : Conduct V} {sup : Supervisor V} {te : TaskEvent}
      {serve : Serve} : x.Alive → (x.supervisors inst).step c = some sup → sup.event joinError = some te →
      Serve.TaskStep x.serve (.task inst jobId te) serve →
      Step x (.conduct inst jobId c) { x.setSupervisor inst sup with serve }
  | abort {x : Supervised V} {inst : Nat} {jobId : String} {c : Conduct V} : x.Alive →
      (x.supervisors inst).step c = some (.ended .aborts) → ⟨inst, jobId, .running⟩ ∈ x.serve.jobs.tasks →
      Step x (.conduct inst jobId c) (x.setSupervisor inst (.ended .aborts))

/-- The step of the serve loop that a step is seen as. -/
def seen : SupervisedEvent V → List ServeEvent
  | .serve e => [e]
  | .conduct inst jobId c => (((Supervisor.after (runAction c)).event joinError).map (.task inst jobId)).toList

end Supervised

variable [DropValue V] {joinError : PanicPayload V → String} {x x' : Supervised V} {e : SupervisedEvent V}
  {h : List (SupervisedEvent V)} {setup : Setup}

private theorem Supervisor.step_eq_some {sup sup' : Supervisor V} {c : Conduct V} (h : sup.step c = some sup') :
    sup' = .after (runAction c) ∧ ∀ outcome, sup ≠ .ended outcome := by
  unfold step at h
  split at h
  · cases h
    exact ⟨rfl, fun outcome heq => by cases heq⟩
  · cases h
    exact ⟨rfl, fun outcome heq => by cases heq⟩
  · cases h

namespace Serve

variable {s s' : Serve} {e : ServeEvent} {t : Task}

theorem Aborting.ending (ha : s.Aborting) : s.Ending := by
  unfold Aborting at ha
  unfold Ending
  cases hloop : s.loop with
  | draining | returned | panicked => trivial
  | _ =>
    rw [hloop] at ha
    exact ha.elim

/-- As long as the loop serves, a task gets its result from its action. -/
private theorem Step.result_of_not_conduct (hs : Step s e s') (hconduct : ¬ e.OfConduct) (hn : ¬ s'.Ending)
    (ht : t ∈ s'.jobs.tasks) {result : Except String Output} (hresult : t.phase.result = some result) :
    ∃ u ∈ s.jobs.tasks, u.inst = t.inst ∧ u.phase.result = some result := by
  rcases hs.result ht hresult with hold | ⟨jobId, rfl⟩ | ⟨ha, -⟩
  · exact hold
  · exact absurd trivial hconduct
  · exact absurd (hs.ending ha.ending) hn

end Serve

namespace Supervised

private theorem Step.seen (hs : Step joinError x e x') : Steps Serve.Step x.serve (seen joinError e) x'.serve := by
  cases hs with
  | serve _ _ hs => exact .single hs
  | conduct _ hstep hevent hs =>
    obtain ⟨rfl, -⟩ := Supervisor.step_eq_some hstep
    simp only [Supervised.seen, hevent]
    exact .single (.task hs)
  | abort _ hstep _ =>
    obtain ⟨heq, -⟩ := Supervisor.step_eq_some hstep
    simp only [Supervised.seen, ← heq]
    exact .nil

/-- A run with supervisors is a run of its serve loop. -/
theorem run_serve (hr : Steps (Step joinError) x h x') :
    Steps Serve.Step x.serve (h.flatMap (seen joinError)) x'.serve :=
  hr.simulate fun _ _ _ hs => hs.seen

/-! ### Supervisors and their tasks -/

/-- The supervisors have ended with what the conducts of their actions have come to, and the tasks with that. -/
structure Accounted (joinError : PanicPayload V → String) (h : List (SupervisedEvent V))
  (x : Supervised V) : Prop where
  outcome : ∀ inst outcome, x.supervisors inst = .ended outcome ↔
    ∃ jobId c, .conduct inst jobId c ∈ h ∧ Supervisor.after (runAction c) = .ended outcome
  result : ¬ x.serve.Ending → ∀ t ∈ x.serve.jobs.tasks, ∀ result, t.phase.result = some result →
    ∃ outcome, x.supervisors t.inst = .ended outcome ∧ Supervisor.result joinError outcome = some result

/-- A conduct that has ended its supervisor has been the last one. -/
private theorem Step.outcome (hs : Step joinError x e x') (ha : Accounted joinError h x) (inst : Nat)
    (outcome : Unwind (PanicPayload V) Output) : x'.supervisors inst = .ended outcome ↔
      ∃ jobId c, .conduct inst jobId c ∈ h ++ [e] ∧ Supervisor.after (runAction c) = .ended outcome := by
  have hconduct : ∀ {i : Nat} {jobId : String} {c : Conduct V} {sup : Supervisor V},
      (x.supervisors i).step c = some sup → (Function.update x.supervisors i sup inst = .ended outcome ↔
        ∃ jobId' c', .conduct inst jobId' c' ∈ h ++ [.conduct i jobId c] ∧
          Supervisor.after (runAction c') = .ended outcome) := by
    intro i jobId c sup hstep
    obtain ⟨rfl, hbefore⟩ := Supervisor.step_eq_some hstep
    by_cases hi : inst = i
    · subst hi
      rw [Function.update_self]
      constructor
      · intro hafter
        exact ⟨jobId, c, by simp, hafter⟩
      · rintro ⟨jobId', c', hmem, hafter⟩
        rcases List.mem_append.1 hmem with hmem | hmem
        · exact absurd ((ha.outcome inst outcome).2 ⟨jobId', c', hmem, hafter⟩) (hbefore outcome)
        · simp only [List.mem_singleton, SupervisedEvent.conduct.injEq] at hmem
          obtain ⟨-, -, rfl⟩ := hmem
          exact hafter
    · rw [Function.update_of_ne hi, ha.outcome inst outcome]
      simp [hi]
  cases hs with
  | serve =>
    rw [ha.outcome inst outcome]
    simp
  | conduct _ hstep => exact hconduct hstep
  | abort _ hstep => exact hconduct hstep

private theorem Step.accounted (hs : Step joinError x e x') (ha : Accounted joinError h x) :
    Accounted joinError (h ++ [e]) x' := by
  refine ⟨hs.outcome ha, ?_⟩
  -- a task that has its result already is not the one that steps
  have hother : ∀ {inst : Nat} {c : Conduct V} {sup : Supervisor V} {t : Task} {result : Except String Output},
      (x.supervisors inst).step c = some sup → ¬ x.serve.Ending → t ∈ x.serve.jobs.tasks →
      t.phase.result = some result → ∃ outcome, Function.update x.supervisors inst sup t.inst = .ended outcome ∧
        Supervisor.result joinError outcome = some result := by
    intro inst c sup t result hstep hn ht hresult
    obtain ⟨outcome, hended, hout⟩ := ha.result hn t ht result hresult
    have hne : t.inst ≠ inst := by
      rintro rfl
      exact (Supervisor.step_eq_some hstep).2 outcome hended
    exact ⟨outcome, (Function.update_of_ne hne ..).trans hended, hout⟩
  cases hs with
  | serve _ hconduct hs =>
    intro hn t ht result hresult
    obtain ⟨u, hu, hinst, hu'⟩ := hs.result_of_not_conduct hconduct hn ht hresult
    obtain ⟨outcome, hended, hout⟩ := ha.result (fun hending => hn (hs.ending hending)) u hu result hu'
    exact ⟨outcome, hinst ▸ hended, hout⟩
  | @conduct inst jobId c sup te serve _ hstep hevent hs =>
    intro hn t ht result hresult
    rcases Supervisor.event_eq_some hevent with ⟨rfl, -⟩ | ⟨outcome, result', rfl, hout, rfl⟩
    · cases hs with
      | act => exact hother hstep hn ht hresult
    · cases hs with
      | stop htask =>
        rcases Serve.mem_setPhase ht with ⟨rfl, hphase⟩ | hmem
        · rw [hphase] at hresult
          cases hresult
          exact ⟨outcome, Function.update_self .., hout⟩
        · exact hother hstep hn hmem hresult
  | @abort inst jobId c _ hstep _ =>
    intro hn t ht result hresult
    exact hother hstep hn ht hresult

private theorem accounted (hr : Steps (Step joinError) (init setup) h x) : Accounted joinError h x :=
  Steps.history ⟨fun inst outcome => by simp [init], fun _ t ht => by simp [init, Serve.init] at ht⟩
    (fun _ _ _ _ _ hs ih => hs.accounted ih) hr

/-! ### Containment -/

/-- A step of the run with the history `h`. -/
structure At (joinError : PanicPayload V → String) (setup : Setup) (h h₁ : List (SupervisedEvent V))
    (e : SupervisedEvent V) (x₁ x₂ : Supervised V) : Prop where
  history : ∃ h₂, h = h₁ ++ e :: h₂
  before : Steps (Step joinError) (init setup) h₁ x₁
  step : Step joinError x₁ e x₂

/-- The panics of the actions are contained in a run. -/
structure Contains (joinError : PanicPayload V → String) (setup : Setup) (h : List (SupervisedEvent V))
    (x : Supervised V) : Prop where
  /-- A supervisor that has ended has returned an output, and its task has it. -/
  completed : ∀ inst outcome, x.supervisors inst = .ended outcome → ∃ output, outcome = .returns output
  result : ¬ x.serve.Ending → ∀ t ∈ x.serve.jobs.tasks, ∀ result, t.phase.result = some result →
    ∃ output, result = .ok output ∧ x.supervisors t.inst = .ended (.returns output)
  /-- What the action has come to ends its task, and nothing else is changed by it. -/
  reported : ∀ {h₁ inst jobId c x₁ x₂}, At joinError setup h h₁ (.conduct inst jobId c) x₁ x₂ →
    (c.yield = .pending → x₂.supervisors inst = .polling) ∧
    (∀ output, c.yield = .ready output → x₂.supervisors inst = .ended (.returns output) ∧
      ⟨inst, jobId, .ended (.ok output)⟩ ∈ x₂.serve.jobs.tasks) ∧
    x₂.serve.loop = x₁.serve.loop ∧ x₂.serve.link = x₁.serve.link ∧
    ∀ t ∈ x₁.serve.jobs.tasks, t.inst ≠ inst → t ∈ x₂.serve.jobs.tasks
  /-- No step on a job touches another one. -/
  others : ∀ {h₁ e x₁ x₂}, At joinError setup h h₁ e x₁ x₂ → e.ofShutdown = false → ∀ J, e.job ≠ some J →
    Serve.SameJob x₁.serve x₂.serve J
  joined : ∀ inst jobId, .serve (.joinFailed inst jobId) ∉ h
  /-- A job is settled with the output of its supervisor, and one that has panicked as failed. -/
  settled : ∀ {h₁ inst jobId x₁ x₂}, At joinError setup h h₁ (.serve (.joined inst jobId)) x₁ x₂ → ∃ job output,
    x₁.serve.jobs.active.lookup jobId = some job ∧ x₁.supervisors inst = .ended (.returns output) ∧
    x₂.serve.loop = .sending (JobManager.settlement jobId job output) (.remove jobId) ∧
    ∀ jobId' c payload, .conduct inst jobId' c ∈ h₁ → c.panicked = some payload →
      (job.cancellations = [] → ∃ update error,
        JobManager.settlement jobId job output = [⟨none, job.trace, .jobUpdate update⟩] ∧
        update.state = .failed ∧ update.error = some error ∧ Validation.protocolError error = .ok ()) ∧
      (job.cancellations ≠ [] → JobManager.settlement jobId job output = job.cancellations.map (·.acknowledgement))
  /-- A task that has a result can be joined and its job settled. -/
  continues : x.serve.loop = .head → ∀ t ∈ x.serve.jobs.tasks, ∀ result, t.phase.result = some result →
    ∃ w x' queue, Steps (Step joinError) x (w ++ [.serve (.joined t.inst t.jobId)]) x' ∧
      x'.serve.loop = .sending queue (.remove t.jobId)

/-- Every conduct of the run is contained. -/
def Contained (h : List (SupervisedEvent V)) : Prop := ∀ inst jobId c, .conduct inst jobId c ∈ h → c.Contained

private theorem Contained.of_append {h₁ h₂ : List (SupervisedEvent V)} (hc : Contained (h₁ ++ h₂)) : Contained h₁ :=
  fun inst jobId c hmem => hc inst jobId c (List.mem_append_left _ hmem)

private theorem after_yield {c : Conduct V} (hc : c.Contained) {outcome : Unwind (PanicPayload V) Output}
    (hafter : Supervisor.after (runAction c) = .ended outcome) :
    ∃ output, c.yield = .ready output ∧ outcome = .returns output := by
  rw [runAction_of_contained hc] at hafter
  cases hy : c.yield with
  | pending =>
    rw [hy] at hafter
    cases hafter
  | ready output =>
    rw [hy] at hafter
    cases hafter
    exact ⟨output, rfl, rfl⟩

/-- A panic that leaves a supervisor is what its conduct has let out. -/
private theorem contained_of_completed (ha : Accounted joinError h x)
    (hcompleted : ∀ inst outcome, x.supervisors inst = .ended outcome → ∃ output, outcome = .returns output) :
    Contained h := by
  intro inst jobId c hmem
  have hended : ∀ outcome, Supervisor.after (runAction c) = .ended outcome → outcome.Returns := fun outcome hafter =>
    hcompleted inst outcome ((ha.outcome inst outcome).2 ⟨jobId, c, hmem, hafter⟩)
  rw [← returns_runAction_iff]
  cases hrun : runAction c with
  | returns output => simp
  | panics payload =>
    have hpanics := hended (.panics payload) (by rw [hrun]; rfl)
    exact absurd hpanics (Unwind.not_returns_panics payload)
  | aborts =>
    have haborts := hended .aborts (by rw [hrun]; rfl)
    exact absurd haborts Unwind.not_returns_aborts

private theorem completed_of_contained (ha : Accounted joinError h x) (hc : Contained h) (inst : Nat)
    (outcome : Unwind (PanicPayload V) Output) (hended : x.supervisors inst = .ended outcome) :
    ∃ output, outcome = .returns output := by
  obtain ⟨jobId, c, hmem, hafter⟩ := (ha.outcome inst outcome).1 hended
  obtain ⟨output, -, houtcome⟩ := after_yield (hc inst jobId c hmem) hafter
  exact ⟨output, houtcome⟩

private theorem result_of_contained (ha : Accounted joinError h x) (hc : Contained h)
    (hn : ¬ x.serve.Ending) {t : Task} (ht : t ∈ x.serve.jobs.tasks) {result : Except String Output}
    (hresult : t.phase.result = some result) :
    ∃ output, result = .ok output ∧ x.supervisors t.inst = .ended (.returns output) := by
  obtain ⟨outcome, hended, hout⟩ := ha.result hn t ht result hresult
  obtain ⟨output, rfl⟩ := completed_of_contained ha hc t.inst outcome hended
  cases hout
  exact ⟨output, rfl, hended⟩

/-- The output of an action that has panicked. -/
private theorem output_of_panicked (ha : Accounted joinError h x) (hc : Contained h) {inst : Nat} {jobId : String}
    {c : Conduct V} {payload : PanicPayload V} {output : Output} (hmem : .conduct inst jobId c ∈ h)
    (hp : c.panicked = some payload) (hended : x.supervisors inst = .ended (.returns output)) :
    output = .error payload.error := by
  have hyield : c.yield = .ready (.error payload.error) := by
    unfold Conduct.panicked at hp
    split at hp
    · cases hp
      rfl
    · cases hp
      rfl
    · cases hp
  have hafter : Supervisor.after (runAction c) = .ended (.returns (.error payload.error)) := by
    rw [runAction_of_contained (hc inst jobId c hmem), hyield]
    rfl
  have hended' := (ha.outcome inst _).2 ⟨jobId, c, hmem, hafter⟩
  rw [hended] at hended'
  cases hended'
  rfl

private theorem Step.reported {inst : Nat} {jobId : String} {c : Conduct V}
    (hs : Step joinError x (.conduct inst jobId c) x') (hc : c.Contained) :
    (c.yield = .pending → x'.supervisors inst = .polling) ∧
    (∀ output, c.yield = .ready output → x'.supervisors inst = .ended (.returns output) ∧
      ⟨inst, jobId, .ended (.ok output)⟩ ∈ x'.serve.jobs.tasks) ∧
    x'.serve.loop = x.serve.loop ∧ x'.serve.link = x.serve.link ∧
    ∀ t ∈ x.serve.jobs.tasks, t.inst ≠ inst → t ∈ x'.serve.jobs.tasks := by
  have hrun := runAction_of_contained hc
  cases hs with
  | abort _ hstep =>
    obtain ⟨hafter, -⟩ := Supervisor.step_eq_some hstep
    obtain ⟨output, -, houtcome⟩ := after_yield hc hafter.symm
    cases houtcome
  | conduct _ hstep hevent hs =>
    obtain ⟨rfl, -⟩ := Supervisor.step_eq_some hstep
    have hself : Function.update x.supervisors inst (.after (runAction c)) inst = .after (.returns c.yield) := by
      rw [Function.update_self, hrun]
    refine ⟨fun hy => ?_, fun output hy => ⟨?_, ?_⟩, hs.frame.loop, hs.link, fun t ht hne => ?_⟩
    · rw [hy] at hself
      exact hself
    · rw [hy] at hself
      exact hself
    · rw [hrun, hy] at hevent
      cases hevent
      cases hs with
      | stop htask => exact List.mem_map.2 ⟨_, htask, if_pos rfl⟩
    · cases hs with
      | act => exact ht
      | _ => exact List.mem_map.2 ⟨t, ht, if_neg hne⟩

private theorem Step.sameJob (hs : Step joinError x e x') (hm : x.serve.Matched)
    (hshut : e.ofShutdown = false) {J : String} (hjob : e.job ≠ some J) : Serve.SameJob x.serve x'.serve J := by
  cases hs with
  | serve _ _ hs => exact hs.sameJob hm hshut hjob
  | conduct _ _ _ hs => exact hs.sameJob hm hjob
  | abort => exact ⟨rfl, fun _ _ => rfl⟩

end Supervised

namespace Serve

private theorem Step.joined_inv {s s' : Serve} {inst : Nat} {jobId : String} (hs : Step s (.joined inst jobId) s') :
    ∃ job output, s.loop = .head ∧ ⟨inst, jobId, .completed (.ok output)⟩ ∈ s.jobs.tasks ∧
      s.jobs.active.lookup jobId = some job ∧
      s'.loop = .sending (JobManager.settlement jobId job output) (.remove jobId) := by
  cases hs with
  | task hs => cases hs
  | context hs => cases hs
  | loop hs =>
    cases hs with
    | @join _ _ output jobs queue hloop _ htask hsettle =>
      obtain ⟨job, hl, -, rfl⟩ := JobManager.settle_join hsettle
      exact ⟨job, output, hloop, htask, hl, rfl⟩

private theorem Step.joinFailed_inv {s s' : Serve} {inst : Nat} {jobId : String}
    (hs : Step s (.joinFailed inst jobId) s') :
    ∃ source, s.loop = .head ∧ ⟨inst, jobId, .completed (.error source)⟩ ∈ s.jobs.tasks := by
  cases hs with
  | task hs => cases hs
  | context hs => cases hs
  | loop hs =>
    cases hs with
    | @joinFailed _ _ source hloop _ htask => exact ⟨source, hloop, htask⟩

/-- A task with an output can be joined. -/
theorem exists_join {s : Serve} (hm : s.Matched) (hloop : s.loop = .head) {inst : Nat}
    {jobId : String} {output : Output} (ht : ⟨inst, jobId, .completed (.ok output)⟩ ∈ s.jobs.tasks) :
    ∃ s' queue, LoopStep s (.joined inst jobId) s' ∧ s'.loop = .sending queue (.remove jobId) := by
  obtain ⟨job, hl, -⟩ := hm.lookup_of_task ht
  have hactive : s.jobs.hasActiveJobs := by
    intro hsize
    rw [AList.size_eq_length, List.length_eq_zero_iff] at hsize
    have hmem := AList.lookup_eq_some_iff.1 hl
    rw [hsize] at hmem
    cases hmem
  cases hsettle : (s.jobs.join ⟨inst, jobId, .completed (.ok output)⟩).settle jobId output with
  | none => exact absurd (JobManager.settle_join_eq_none hsettle) (by rw [hl]; simp)
  | some settled => exact ⟨_, settled.2, .join hloop hactive ht hsettle, rfl⟩

end Serve

namespace Supervised

private theorem matched (hr : Steps (Step joinError) (init setup) h x) : x.serve.Matched :=
  Serve.matched (run_serve hr)

/-- A task that has its output goes on to be joined. -/
private theorem continues (hr : Steps (Step joinError) (init setup) h x) (hc : Contained h)
    (hloop : x.serve.loop = .head) {t : Task} (ht : t ∈ x.serve.jobs.tasks) {result : Except String Output}
    (hresult : t.phase.result = some result) :
    ∃ w x' queue, Steps (Step joinError) x (w ++ [.serve (.joined t.inst t.jobId)]) x' ∧
      x'.serve.loop = .sending queue (.remove t.jobId) := by
  have hn : ¬ x.serve.Ending := by simp [Serve.Ending, hloop]
  have ha := accounted hr
  obtain ⟨output, rfl, -⟩ := result_of_contained ha hc hn ht hresult
  have halive : x.Alive := by
    intro inst haborts
    obtain ⟨output, hreturns⟩ := completed_of_contained ha hc inst .aborts haborts
    cases hreturns
  have hm := matched hr
  obtain ⟨inst, jobId, phase⟩ := t
  -- the finish guard and the end of the task are steps of their own
  have hcompleted : ∀ {s : Serve}, s.Matched → s.loop = .head →
    ⟨inst, jobId, .completed (.ok output)⟩ ∈ s.jobs.tasks →
      ∃ x' queue, Steps (Step joinError) { x with serve := s } [.serve (.joined inst jobId)] x' ∧
        x'.serve.loop = .sending queue (.remove jobId) := by
    intro s hm hloop ht
    obtain ⟨s', queue, hs, hloop'⟩ := Serve.exists_join hm hloop ht
    exact ⟨{ x with serve := s' }, queue, .single (.serve halive id (.loop hs)), hloop'⟩
  have hfinished : ∀ {s : Serve}, s.Matched → s.loop = .head → ⟨inst, jobId, .finished (.ok output)⟩ ∈ s.jobs.tasks →
      ∃ w x' queue, Steps (Step joinError) { x with serve := s } (w ++ [.serve (.joined inst jobId)]) x' ∧
        x'.serve.loop = .sending queue (.remove jobId) := by
    intro s hm hloop ht
    have hs : Serve.Step s _ _ := .task (.complete ht)
    obtain ⟨x', queue, hsteps, hloop'⟩ := hcompleted (hs.matched hm) hloop (List.mem_map.2 ⟨_, ht, if_pos rfl⟩)
    exact ⟨[_], x', queue, .cons (.serve halive id hs) hsteps, hloop'⟩
  cases phase with
  | spawned | running => cases hresult
  | completed result' =>
    cases hresult
    obtain ⟨x', queue, hsteps, hloop'⟩ := hcompleted hm hloop ht
    exact ⟨[], x', queue, hsteps, hloop'⟩
  | finished result' =>
    cases hresult
    exact hfinished hm hloop ht
  | ended result' =>
    cases hresult
    have hs : Serve.Step x.serve _ _ := .task (.finish ht)
    obtain ⟨w, x', queue, hsteps, hloop'⟩ := hfinished (hs.matched hm) hloop (List.mem_map.2 ⟨_, ht, if_pos rfl⟩)
    exact ⟨_ :: w, x', queue, .cons (.serve halive id hs) hsteps, hloop'⟩

/-- The panics of the actions are contained in a run if and only if no payload of a caught panic panics when it is
dropped, and no future does after its last poll. -/
theorem contains_iff (hr : Steps (Step joinError) (init setup) h x) : Contains joinError setup h x ↔ Contained h := by
  have ha := accounted hr
  refine ⟨fun hcontains => contained_of_completed ha hcontains.completed, fun hc => ?_⟩
  refine ⟨completed_of_contained ha hc, fun hn t ht result hresult =>
    result_of_contained ha hc hn ht hresult, ?_, ?_, ?_, ?_, fun hloop t ht result hresult =>
      continues hr hc hloop ht hresult⟩
  · rintro h₁ inst jobId c x₁ x₂ ⟨⟨h₂, rfl⟩, -, hs⟩
    exact hs.reported (hc inst jobId c (by simp))
  · rintro h₁ e x₁ x₂ ⟨-, hbefore, hs⟩ hshut J hjob
    exact hs.sameJob (matched hbefore) hshut hjob
  · intro inst jobId hmem
    obtain ⟨h₁, h₂, rfl⟩ := List.append_of_mem hmem
    obtain ⟨x₁, x₂, hbefore, hs, -⟩ := hr.split
    cases hs with
    | serve _ _ hs =>
      obtain ⟨source, hloop, htask⟩ := hs.joinFailed_inv
      have hn : ¬ x₁.serve.Ending := by simp [Serve.Ending, hloop]
      obtain ⟨output, hok, -⟩ := result_of_contained (accounted hbefore) hc.of_append hn htask rfl
      cases hok
  · rintro h₁ inst jobId x₁ x₂ ⟨⟨h₂, rfl⟩, hbefore, hs⟩
    have hbefore' := accounted hbefore
    cases hs with
    | serve _ _ hs =>
      obtain ⟨job, output, hloop, htask, hl, hloop'⟩ := hs.joined_inv
      have hn : ¬ x₁.serve.Ending := by simp [Serve.Ending, hloop]
      obtain ⟨output', hok, hended⟩ := result_of_contained hbefore' hc.of_append hn htask rfl
      cases hok
      refine ⟨job, output, hl, hended, hloop', fun jobId' c payload hmem hp => ⟨fun hnil => ?_, fun hne => ?_⟩⟩
      · obtain rfl := output_of_panicked hbefore' hc.of_append hmem hp hended
        refine ⟨_, outboundError payload.error, if_pos hnil, rfl, rfl, outboundError_valid payload.error⟩
      · exact if_neg hne

/-! ### Two actions that panic -/

/-- The steps of the serve loop that are not of an action. -/
theorem serve_steps {w : List ServeEvent} {s : Serve} (halive : x.Alive) (hw : ∀ e ∈ w, ¬ e.OfConduct)
    (hr : Steps Serve.Step x.serve w s) : Steps (Step joinError) x (w.map .serve) { x with serve := s } := by
  refine Steps.history (I := fun w s => (∀ e ∈ w, ¬ e.OfConduct) →
    Steps (Step joinError) x (w.map .serve) { x with serve := s }) (fun _ => .nil)
      (fun w t e t' _ hs ih hw => ?_) hr hw
  rw [List.map_append]
  exact .snoc (ih fun e he => hw e (List.mem_append_left _ he)) (.serve halive (hw e (by simp)) hs)

instance : DropValue Empty := ⟨fun value => value.elim⟩

open Serve (sampleSetup sampleStart sampleAccepted sampleJobId)

/-- A job is accepted, and the handler of its action returns a future. -/
def sampleCalled : List (SupervisedEvent Empty) :=
  [.received sampleStart none, .sent sampleAccepted, .spawned 0 Session.sampleContext,
    .task 0 sampleJobId .started].map .serve ++ [.conduct 0 sampleJobId (.call (.ok ()))]

def sampleStarted : Supervised Empty := ⟨Session.sampleRunning.serve, fun _ => .spawned⟩

def sampleJoinError (_ : PanicPayload Empty) : String := "task panicked"

private theorem alive_sampleStarted : sampleStarted.Alive := by
  intro inst h
  cases h

private theorem sampleCalled_steps :
    Steps (Step sampleJoinError) (init sampleSetup) sampleCalled (sampleStarted.setSupervisor 0 .polling) := by
  refine .snoc (serve_steps (x := init sampleSetup) ?_ ?_
    (Session.run_serve (@Session.sampleRunning_steps Session.samplePlatform))) ?_
  · exact alive_sampleStarted
  · simp [ServeEvent.OfConduct]
  · exact .conduct alive_sampleStarted rfl rfl (.act (List.mem_singleton.2 rfl))

/-- The future panics in its second poll. -/
def samplePanicked : List (SupervisedEvent Empty) :=
  [.conduct 0 sampleJobId (.poll (.ok .pending) (.ok ())),
    .conduct 0 sampleJobId (.poll (.error (.str "action failure")) (.ok ())),
    .serve (.task 0 sampleJobId .finished), .serve (.task 0 sampleJobId .completed), .serve (.joined 0 sampleJobId)]

private theorem samplePanicked_steps : ∃ x, Steps (Step sampleJoinError) (init sampleSetup)
    (sampleCalled ++ samplePanicked) x := by
  have hcalled : (sampleStarted.setSupervisor 0 .polling).Alive := alive_sampleStarted.setSupervisor (by simp) 0
  have hpolled : ((sampleStarted.setSupervisor 0 .polling).setSupervisor 0 .polling).Alive :=
    hcalled.setSupervisor (by simp) 0
  have hended := hpolled.setSupervisor
    (show Supervisor.ended (.returns (.error (PanicPayload.str (V := Empty) "action failure").error)) ≠
    .ended .aborts by
      simp) 0
  suffices hsteps : ∃ x, Steps (Step sampleJoinError) (sampleStarted.setSupervisor 0 .polling) samplePanicked x by
    obtain ⟨x, hx⟩ := hsteps
    exact ⟨x, sampleCalled_steps.trans hx⟩
  refine Steps.exists_cons (.conduct hcalled rfl rfl (.act (List.mem_singleton.2 rfl))) ?_
  refine Steps.exists_cons (.conduct hpolled rfl rfl (.stop (List.mem_singleton.2 rfl))) ?_
  refine Steps.exists_cons (.serve hended id (.task (.finish (List.mem_singleton.2 rfl)))) ?_
  refine Steps.exists_cons (.serve hended id (.task (.complete (List.mem_singleton.2 rfl)))) ?_
  exact ⟨_, .single (.serve hended id (.loop (.join rfl (by decide) (List.mem_singleton.2 rfl) rfl)))⟩

/-- The panic of the future ends with its own job. -/
theorem contains_iff_samplePanicked : ∃ x, Steps (Step sampleJoinError) (init sampleSetup)
    (sampleCalled ++ samplePanicked) x ∧ Contains sampleJoinError sampleSetup (sampleCalled ++ samplePanicked) x := by
  obtain ⟨x, hx⟩ := samplePanicked_steps
  refine ⟨x, hx, (contains_iff hx).2 ?_⟩
  intro inst jobId c hmem
  simp only [sampleCalled, samplePanicked, List.map_cons, List.map_nil, List.cons_append, List.nil_append,
    List.mem_cons, List.not_mem_nil, or_false, reduceCtorEq, false_or, SupervisedEvent.conduct.injEq] at hmem
  rcases hmem with ⟨-, -, rfl⟩ | ⟨-, -, rfl⟩ | ⟨-, -, rfl⟩
  · trivial
  · trivial
  · exact ⟨rfl, rfl⟩

/-- The future returns its output, and panics when it is dropped. -/
def sampleEscaped : List (SupervisedEvent Empty) :=
  [.conduct 0 sampleJobId (.poll (.ok (.ready (.ok ⟨none, []⟩))) (.error (.str "drop failure"))),
    .serve (.task 0 sampleJobId .finished), .serve (.task 0 sampleJobId .completed),
    .serve (.joinFailed 0 sampleJobId)]

/-- That panic ends the session, with the job still active. -/
theorem sampleEscaped_not_contained : ∃ x,
    Steps (Step sampleJoinError) (init sampleSetup) (sampleCalled ++ sampleEscaped) x ∧
    ¬ Contains sampleJoinError sampleSetup (sampleCalled ++ sampleEscaped) x ∧
    x.serve.loop = .returned (.error (.action "action supervisor task ended without a result: task panicked")) ∧
    (x.serve.jobs.active.lookup sampleJobId).isSome := by
  have hcalled : (sampleStarted.setSupervisor 0 .polling).Alive := alive_sampleStarted.setSupervisor (by simp) 0
  have hended := hcalled.setSupervisor
    (show Supervisor.ended (.panics (.str (V := Empty) "drop failure")) ≠ .ended .aborts by simp) 0
  refine ⟨_, sampleCalled_steps.trans (.cons (.conduct hcalled rfl rfl (.stop (List.mem_singleton.2 rfl)))
    (.cons (.serve hended id (.task (.finish (List.mem_singleton.2 rfl))))
    (.cons (.serve hended id (.task (.complete (List.mem_singleton.2 rfl))))
    (.single (.serve hended id (.loop (.joinFailed rfl (by decide) (List.mem_singleton.2 rfl)))))))), ?_, rfl, rfl⟩
  intro hcontains
  exact hcontains.joined 0 sampleJobId (by simp [sampleEscaped])

end Supervised

end PluginSdk
